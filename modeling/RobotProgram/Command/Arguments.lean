/-!
# Command-line arguments

A word that starts with a dash is a switch, by its long name or by a letter. A switch may take a
value, in the same word or in the next one. A double dash ends the switches, and where words may not
be mixed with switches, so does the first other word.
-/

namespace RobotProgram.Command

/-- A switch: its long name with two dashes, its letter, and whether it takes a value. -/
structure Switch where
  name : String
  letter : Option Char
  takesValue : Bool

/-- What words came to: the switches that were given, with their values, and the other words. -/
structure Arguments where
  given : List (String × String) := []
  words : List String := []

namespace Arguments

/-- Adds a switch. -/
def give (name value : String) (a : Arguments) : Arguments :=
  { a with given := a.given ++ [(name, value)] }

/-- Adds words. -/
def add (words : List String) (a : Arguments) : Arguments := { a with words := a.words ++ words }

/-- Whether a switch was given. -/
def has (a : Arguments) (name : String) : Bool := a.given.any fun g => g.1 == name

/-- The value of a switch; of several, the last counts. -/
def value? (a : Arguments) (name : String) : Option String :=
  (a.given.findRev? fun g => g.1 == name).map (·.2)

end Arguments

/-- A word read as a switch: the name, and what follows it in the word. -/
inductive SwitchWord where
  | flag (name : String)
  | valued (name value : String)
  /-- The value is the next word. -/
  | valueNext (name : String)
  deriving DecidableEq

/-- The name before an equals sign, and what follows it. -/
def splitWord (word : String) : String × Option String :=
  let cs := word.toList
  let name := cs.takeWhile (· != '=')
  (String.ofList name,
    if name.length == cs.length then none else some (String.ofList (cs.drop (name.length + 1))))

/-- Reads a word as a switch with a long name. -/
def longSwitch? (switches : List Switch) (word : String) : Option SwitchWord := do
  let (name, value) := splitWord word
  let s ← switches.find? fun s => s.name == name
  match s.takesValue, value with
  | true, some v => some (.valued name v)
  | true, none => some (.valueNext name)
  | false, none => some (.flag name)
  | false, some _ => none

/-- Reads a word as a switch with a letter, which takes a value. -/
def letterSwitch? (switches : List Switch) (word : String) : Option SwitchWord := do
  match word.toList with
  | '-' :: c :: rest =>
    let s ← switches.find? fun s => s.letter == some c
    if rest.isEmpty then some (.valueNext s.name) else some (.valued s.name (String.ofList rest))
  | _ => none

/-- Reads a word as a switch. -/
def switchWord? (switches : List Switch) (word : String) : Option SwitchWord :=
  if word.startsWith "--" then longSwitch? switches word else letterSwitch? switches word

/-- Reads words, unless a switch is not known or lacks its value. Where `mixed` is not set, the
first word that is no switch ends the switches. -/
def Arguments.read? (switches : List Switch) (mixed : Bool) (done : Arguments) :
    List String → Option Arguments
  | [] => some done
  | word :: rest =>
    if word == "--" then some (done.add rest)
    else if word.startsWith "-" && word != "-" then
      match switchWord? switches word, rest with
      | some (.flag name), rest => read? switches mixed (done.give name "") rest
      | some (.valued name v), rest => read? switches mixed (done.give name v) rest
      | some (.valueNext name), v :: rest => read? switches mixed (done.give name v) rest
      | _, _ => none
    else if mixed then read? switches mixed (done.add [word]) rest
    else some (done.add (word :: rest))

end RobotProgram.Command
