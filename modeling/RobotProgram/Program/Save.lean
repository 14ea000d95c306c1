import RobotProgram.Files.Store
import RobotProgram.Host
import RobotProgram.Program.Generate

/-!
# Module files

A module is written to a file; a path without a suffix gets the one of the settings.
-/

namespace RobotProgram.Program.Generator

open Files (Path Access)

/-- The path that a module is written to. -/
def filePath (g : Generator) (path : Path) : Outcome Path :=
  if path.suffix.isEmpty then path.withSuffix g.settings.fileExtension else .ok path

/-- Writes the module of the buffers. The file is there, and empty, before the text is made and
encoded. -/
def save [Host] (g : Generator) (b : Buffers) (path : Path) : Access Path := do
  let path ← g.filePath path
  Access.makeDirectories path.parent
  Access.write path ""
  Access.write path (← Host.encoded Host.fileTakes (← g.moduleText b))
  return path

/-- The event of a written module. -/
def saved (b : Buffers) (path : Path) : Event :=
  ⟨.info, "module_written", [("path", .text path.text), ("diagnostics", .int b.errors.length)]⟩

end RobotProgram.Program.Generator
