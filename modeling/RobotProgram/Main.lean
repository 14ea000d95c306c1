import RobotProgram.Command.Run
import RobotProgram.Document.Json

/-!
# The program

Reads the files that a command line is about, answers the command line, writes the files that came
of it and prints. All decisions are made in `RobotProgram.Command`.
-/

namespace RobotProgram.Main

open Command (Invocation Display Reply Setting Task)
open Files (Node Path Place Store)
open Pipeline (Session)

/-- What stands at a path on disk. -/
def look (path : String) : IO (Option Node) := do
  try
    let bytes ← IO.FS.readBinFile path
    return some ((String.fromUTF8? bytes).elim .damaged .text)
  catch _ =>
    try
      let _ ← (← IO.FS.realPath path).readDir
      return some .directory
    catch _ => return none

/-- The names in a directory on disk. -/
def namesIn (path : String) : IO (List String) := do
  try
    return (← (← IO.FS.realPath path).readDir).toList.map (·.fileName)
  catch _ => return []

/-- Takes over what stands at a path, and what stands on the way to it. -/
def takeOver (path : Path) (store : Store) : IO Store := do
  let mut store := store
  for n in List.range path.parts.length do
    let p : Path := { path with parts := path.parts.take (n + 1) }
    match store.locate p, ← look p.text with
    | .ok place, some node => store := store.insert place node
    | _, _ => pure ()
  return store

/-- The files and directories of a configuration. -/
def configFiles (directory : Path) : IO (List Path) := do
  let robots := directory.child "robots"
  let names ← namesIn robots.text
  return [directory, directory.child "generator.yaml", robots] ++ names.map robots.child

/-- The files that a command works on. -/
def taskFiles : Task → List Path
  | .generate file _ output _ _ => [Path.ofText file] ++ (output.map Path.ofText).toList
  | .check file _ => [Path.ofText file]
  | _ => []

/-- The files that a command line is about. -/
def filesOf : Invocation → IO (List Path)
  | .task setting task => do
    return (← configFiles (.ofText setting.configDirectory)) ++ taskFiles task
  | _ => return []

/-- The path of a place. -/
def pathOf (place : Place) : Path :=
  match place with
  | "/" :: parts => ⟨"/", parts⟩
  | parts => ⟨"", parts⟩

/-- Whether two things that stand at a place have the same text. -/
def sameText : Option Node → Node → Bool
  | some .directory, .directory | some .damaged, .damaged => true
  | some (.text s), .text t => s == t
  | _, _ => false

/-- Writes what is not on disk yet. -/
def writeBack (before after : Store) : IO Unit := do
  for (place, node) in after.nodes do
    if !sameText (before.find? place) node then
      match node with
      | .directory => IO.FS.createDirAll (pathOf place).text
      | .text s => IO.FS.writeFile (pathOf place).text s
      | .document _ | .damaged => pure ()

/-- A row of a table, where every cell is as wide as its column. -/
def rowText (widths : List Nat) (cells : List String) : String :=
  Text.trimEnd (String.intercalate "  " ((cells.zip widths).map fun (c, w) =>
    c ++ String.ofList (List.replicate (w - c.length) ' ')))

/-- The width of a column. -/
def columnWidth (rows : List (List String)) (column : Nat) : Nat :=
  rows.foldl (fun w row => max w (row.getD column "").length) 0

/-- The text of a display. -/
def outputText : Display → String
  | .text s => s
  | .table title head rows =>
    let widths := (List.range head.length).map (columnWidth (head :: rows))
    String.join (([title] ++ (head :: rows).map (rowText widths)).map (· ++ "\n"))

/-- A log line of an event. -/
def eventText (json : Bool) (e : Event) : String :=
  if json then
    Json.write (.record (e.values ++ [("event", .text e.name), ("level", .text e.level.name),
      ("logger", .text e.source)]))
  else
    String.intercalate " " ([e.level.name, e.name] ++
      e.values.map fun (k, v) => k ++ "=" ++ v.literal)

/-- Whether log lines are wanted in JSON. -/
def wantsJson : Invocation → Bool
  | .task setting _ => setting.jsonLogs
  | _ => false

/-- Answers a command line. -/
def answer (arguments : List String) : IO UInt32 := do
  let invocation := Invocation.ofArguments arguments
  let before ← (← filesOf invocation).foldlM (fun s p => takeOver p s) ⟨[]⟩
  let _ : Host := { Host.plain with showsColours := ← (← IO.getStdout).isTty }
  let (outcome, session) := (invocation.run.run { store := before } : Except Fault Reply × Session)
  writeBack before session.store
  for e in invocation.shownEvents session.events do
    IO.eprintln (eventText (wantsJson invocation) e)
  match outcome with
  | .ok reply =>
    for o in reply.output do
      IO.print (outputText o)
  | .error f => IO.eprintln f.report.text
  return (Command.exitStatus outcome).toUInt32

end RobotProgram.Main

/-- Runs the program: answers a command line, and ends with its status. -/
def main (arguments : List String) : IO UInt32 := RobotProgram.Main.answer arguments
