import RobotProgram.Files.Store
import RobotProgram.Host

/-!
# Documents in files
-/

namespace RobotProgram.Files

variable [Host]

/-- The value of the document in a file. -/
def Node.value : Node → Outcome Value
  | .text s => Host.document s
  | .document v => .ok v
  | .damaged => .error .notText
  | .directory => .error .unreadableDocument

/-- The value of the document at a path. -/
def Store.value (s : Store) (p : Path) : Outcome Value := do
  p.whole
  match s.read p with
  | .ok node => node.value
  | .error f => .error (.file f p.text)

end RobotProgram.Files
