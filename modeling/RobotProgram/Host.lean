import RobotProgram.Document.Reader
import RobotProgram.Text.Colour

/-!
# Hosts

What the program has from the machine that it runs on: a reader of documents, the characters that a
file and the output take, and whether the output shows codes of colours. All that reads files or
prints has the host as an inferred parameter, so that what is proved of it holds on every host. Here
it is a machine whose texts take every character, and whose output is no terminal.
-/

namespace RobotProgram

/-- What the program has from its machine. -/
class Host where
  /-- The value of the document in a text. -/
  document : String → Outcome Value
  /-- Whether a file takes a character. -/
  fileTakes : Char → Bool
  /-- Whether the output takes a character. -/
  outputTakes : Char → Bool
  /-- Whether the output shows the codes of colours in a text, or drops them. -/
  showsColours : Bool

instance Host.plain : Host where
  document := Document.read
  fileTakes c := (Text.half? c).isNone
  outputTakes c := (Text.half? c).isNone
  showsColours := false

namespace Host

/-- A text where only some characters are taken. The first ones that are not are named by the
fault. -/
def encoded (takes : Char → Bool) (s : String) : Outcome String :=
  match s.toList.dropWhile takes with
  | [] => .ok s
  | c :: cs =>
    let first := (s.toList.takeWhile takes).length
    .error (.unencodable c first (first + (cs.takeWhile fun c => !takes c).length))

variable [Host]

/-- A text as the output shows it. -/
def echoed (s : String) : String := if showsColours then s else Text.uncoloured s

end Host

end RobotProgram
