import RobotProgram.Value.Convert

/-!
# Program settings

How a program module is written. Settings are kept as they were given; what does not fit is found
where it is used.
-/

namespace RobotProgram.Program

/-- The settings of a program module. -/
structure Settings where
  moduleName : Value := .text "MainModule"
  procedureName : Value := .text "main"
  /-- The tool of movements without one of their own; nothing is the robot's tool. -/
  toolName : Value := .null
  fileExtension : Value := .text ".mod"
  lineEnding : Value := .text "\n"
  indent : Value := .text "    "
  commentMark : Value := .text "! "
  headerComments : Value := .list []

namespace Settings

/-- The settings as a record. -/
def toValue (s : Settings) : Value :=
  .record [("module_name", s.moduleName), ("procedure_name", s.procedureName),
    ("tool_name", s.toolName), ("file_extension", s.fileExtension),
    ("line_ending", s.lineEnding), ("indent", s.indent), ("comment_prefix", s.commentMark),
    ("header_comments", s.headerComments)]

/-- The settings with one field assigned; a field that there is not changes nothing. -/
def assign (s : Settings) (key : String) (v : Value) : Settings :=
  match key with
  | "module_name" => { s with moduleName := v }
  | "procedure_name" => { s with procedureName := v }
  | "tool_name" => { s with toolName := v }
  | "file_extension" => { s with fileExtension := v }
  | "line_ending" => { s with lineEnding := v }
  | "indent" => { s with indent := v }
  | "comment_prefix" => { s with commentMark := v }
  | "header_comments" => { s with headerComments := v }
  | _ => s

/-- The settings of a record's entries; other entries are ignored. -/
def ofEntries (es : List (Atom × Value)) : Settings :=
  es.foldl (fun s (k, v) =>
    match k with
    | .text key => s.assign key v
    | _ => s) {}

/-- The settings of a record. -/
def ofValue (v : Value) : Outcome Settings := ofEntries <$> v.entries

/-- A comment line. -/
def comment (s : Settings) (text : Value) : String := s.commentMark.toText ++ text.toText

/-- The line ending, which must be a text. -/
def lineBreak (s : Settings) : Outcome String :=
  match s.lineEnding with
  | .text e => .ok e
  | _ => .error .noSuchPart

/-- Twice the indentation: a text or a list is repeated, a number is doubled. -/
def doubleIndent (s : Settings) : Outcome String :=
  match s.indent with
  | .text i => .ok (i ++ i)
  | .list xs => .ok (Value.list (xs ++ xs)).toText
  | .int n => (Value.int (n * 2)).written
  | .bool b => .ok (if b then "2" else "0")
  | .float x => .ok (Value.float (x * 2.0)).toText
  | _ => .error .wrongType

end Settings

end RobotProgram.Program
