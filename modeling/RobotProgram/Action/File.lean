import RobotProgram.Action.Decode
import RobotProgram.Document.Writer
import RobotProgram.Files.Content
import RobotProgram.Log

/-!
# Action files

An action file is a document that holds a list of action records, alone or as the field `actions`.
-/

namespace RobotProgram.ActionFile

open Files (Path Store Access)

/-- The records of an action file. -/
def records (path : Path) (v : Value) : Outcome (List Value) :=
  let content := match v with
    | .map es => fieldD "actions" es .null
    | v => v
  match content with
  | .list records => .ok records
  | _ => .error (.noActionList path.text)

/-- A file that cannot be read, as a fault of action files. -/
def unreadable (path : Path) : Fault → Fault
  | .file f p => .unreadableActions path.text (some (f, p))
  | .unreadableDocument => .unreadableActions path.text none
  | f => f

/-- The actions in a file. -/
def load [Host] (s : Store) (path : Path) : Outcome (List Action) := do
  let v ← (s.value path).mapError (unreadable path)
  (← records path v).mapM Action.ofRecord

/-- The event of loaded actions. -/
def loaded (path : Path) (actions : List Action) : Event :=
  ⟨.debug, "actions_loaded", [("path", .text path.text), ("count", .int actions.length)]⟩

/-- The content of the file of some actions. -/
def content (actions : List Action) : Outcome Value := do
  return .record [("actions", .list (← actions.mapM Action.toRecord))]

/-- Writes actions to a file. The file is there, and empty, before the records are made. -/
def save (actions : List Action) (path : Path) : Access Unit := do
  Access.makeDirectories path.parent
  Access.write path ""
  Access.write path (Document.write (← content actions))

/-- The event of written actions. -/
def saved (path : Path) (actions : List Action) : Event :=
  ⟨.debug, "actions_written", [("path", .text path.text), ("count", .int actions.length)]⟩

end RobotProgram.ActionFile
