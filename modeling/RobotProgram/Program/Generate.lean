import RobotProgram.Program.Emission

/-!
# Program generation

Actions that are not valid are skipped with a diagnostic. Every other action first adds its
declarations, then its instructions, in the order of the list. The module text is built from the
buffers.
-/

namespace RobotProgram.Program.Generator

open Kinematics (Resolver)

/-- The diagnostic of an action that is skipped. -/
def skipMessage (index : Nat) (a : Action) : Outcome String := do
  return "Action " ++ toString index ++ ": " ++ (← a.text) ++ " is skipped."

/-- The valid actions with their places; the others are reported. -/
def selectValid : List (Action × Nat) → Emit (List (Action × Nat))
  | [] => return []
  | (a, index) :: rest => do
    if ← a.isValid then return (a, index) :: (← selectValid rest)
    else
      addDiagnostics [← skipMessage index a]
      selectValid rest

/-- Runs a step for every action, in the context of its place. -/
def forEach (step : Action → Emit Unit) (actions : List (Action × Nat)) : Emit Unit :=
  actions.forM fun (a, index) => Emit.within [("action_index", .int index)] (step a)

/-- The event of a finished program. -/
def finished (b : Buffers) : Event :=
  ⟨.info, "program_generated", [("declarations", .int b.declarations.length),
    ("instructions", .int b.instructions.length), ("diagnostics", .int b.errors.length)]⟩

/-- Fills the buffers with the program of some actions. -/
def fill [Resolver] (g : Generator) (actions : List Action) : Emit Unit := do
  reset
  let valid ← selectValid actions.zipIdx
  Emit.within [("module", g.settings.moduleName)] do
    forEach g.emitDeclaration valid
    forEach g.emitInstruction valid
    Emit.log (finished (← get).buffers)

/-- Lines joined by the line ending. -/
def joined (g : Generator) (lines : List String) : Outcome String := do
  return String.intercalate (← g.settings.lineBreak) lines

/-- The program of some actions: the declaration lines and the instruction lines, each joined. -/
def generate [Resolver] (g : Generator) (actions : List Action) : Emit (String × String) := do
  g.fill actions
  let b := (← get).buffers
  return (← g.joined b.declarations, ← g.joined b.instructions)

/-- The instruction lines of a module, which are indented twice. -/
def indentedInstructions (g : Generator) (b : Buffers) : Outcome (List String) :=
  b.instructions.mapM fun line => do return (← g.settings.doubleIndent) ++ line

/-- The lines of a module. -/
def moduleLines (g : Generator) (b : Buffers) : Outcome (List String) := do
  let indent := g.settings.indent.toText
  let comments ← g.settings.headerComments.parts
  let instructions ← g.indentedInstructions b
  return ["MODULE " ++ g.settings.moduleName.toText] ++
    comments.map (fun c => indent ++ g.settings.comment c) ++
    b.declarations.map (indent ++ ·) ++
    ["", indent ++ "PROC " ++ g.settings.procedureName.toText ++ "()"] ++
    instructions ++ [indent ++ "ENDPROC", "ENDMODULE"]

/-- The text of a module. -/
def moduleText (g : Generator) (b : Buffers) : Outcome String := do
  let lines ← g.moduleLines b
  let ending ← g.settings.lineBreak
  return String.intercalate ending lines ++ ending

end RobotProgram.Program.Generator
