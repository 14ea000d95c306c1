import RobotProgram.Command.Arguments

/-!
# Invocations

The commands generate a module, check an action file, list the robots of a configuration directory
and show one of them. What is not a command is answered by the usage.
-/

namespace RobotProgram.Command

/-- A command. -/
inductive Task where
  | generate (file robot : String) (output moduleName : Option String) (strict : Bool)
  | check (file robot : String)
  | listRobots
  | showRobot (name : String)

/-- What is common to all commands. -/
structure Setting where
  configDirectory : String
  logLevel : String
  jsonLogs : Bool

/-- What the words of a command line ask for. -/
inductive Invocation where
  /-- They make no sense. -/
  | misuse
  | help
  | version
  | task (setting : Setting) (task : Task)

/-- The switch that asks for help. -/
def helpSwitch : Switch := ⟨"--help", none, false⟩

/-- The switches before a command. -/
def mainSwitches : List Switch :=
  [⟨"--config-dir", none, true⟩, ⟨"--log-level", none, true⟩, ⟨"--json-logs", none, false⟩,
    ⟨"--version", none, false⟩, helpSwitch]

/-- The switches of checking. -/
def checkSwitches : List Switch := [⟨"--robot", some 'r', true⟩, helpSwitch]

/-- The switches of generating. -/
def generateSwitches : List Switch :=
  [⟨"--output", some 'o', true⟩, ⟨"--module-name", some 'm', true⟩, ⟨"--strict", none, false⟩] ++
    checkSwitches

namespace Invocation

/-- Reads the words of a command, which are taken by `task` unless help is asked for. -/
def ofWords (setting : Setting) (switches : List Switch) (words : List String)
    (task : Arguments → Option Task) : Invocation :=
  match Arguments.read? switches true {} words with
  | none => misuse
  | some a =>
    if a.has "--help" then help
    else
      match task a with
      | some t => .task setting t
      | none => misuse

/-- Generating takes one file and a robot. -/
def generateTask? (a : Arguments) : Option Task :=
  match a.words, a.value? "--robot" with
  | [file], some robot =>
    some (.generate file robot (a.value? "--output") (a.value? "--module-name") (a.has "--strict"))
  | _, _ => none

/-- Checking takes one file and a robot. -/
def checkTask? (a : Arguments) : Option Task :=
  match a.words, a.value? "--robot" with
  | [file], some robot => some (.check file robot)
  | _, _ => none

/-- Listing takes nothing. -/
def listTask? (a : Arguments) : Option Task :=
  if a.words.isEmpty then some .listRobots else none

/-- Showing takes one name. -/
def showTask? (a : Arguments) : Option Task :=
  match a.words with
  | [name] => some (.showRobot name)
  | _ => none

/-- The commands on configurations. -/
def ofConfigWords (setting : Setting) (words : List String) : Invocation :=
  match Arguments.read? [helpSwitch] false {} words with
  | none => misuse
  | some a =>
    if a.has "--help" then help
    else
      match a.words with
      | "list-robots" :: rest => ofWords setting [helpSwitch] rest listTask?
      | "show-robot" :: rest => ofWords setting [helpSwitch] rest showTask?
      | _ => misuse

/-- What a command line asks for. -/
def ofArguments (arguments : List String) : Invocation :=
  match Arguments.read? mainSwitches false {} arguments with
  | none => misuse
  | some a =>
    if a.has "--version" then version
    else if a.has "--help" then help
    else
      let setting := ⟨(a.value? "--config-dir").getD "config",
        (a.value? "--log-level").getD "WARNING", a.has "--json-logs"⟩
      match a.words with
      | "generate" :: rest => ofWords setting generateSwitches rest generateTask?
      | "check" :: rest => ofWords setting checkSwitches rest checkTask?
      | "config" :: rest => ofConfigWords setting rest
      | _ => misuse

end Invocation

end RobotProgram.Command
