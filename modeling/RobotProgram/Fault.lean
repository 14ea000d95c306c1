import RobotProgram.Value

/-!
# Faults

Everything that can go wrong, one constructor per cause. `Fault.kind` sorts the causes, and
`Fault.report` gives each its message and details; no other module words a message.
-/

namespace RobotProgram

/-- What the file system refused. -/
inductive FileFault where
  | notFound
  | exists
  | notDirectory
  | isDirectory
deriving DecidableEq, Repr

/-- The number and the words that the system gives for a refusal. -/
def FileFault.message (f : FileFault) (path : String) : String :=
  (match f with
    | .notFound => "[Errno 2] No such file or directory"
    | .exists => "[Errno 17] File exists"
    | .notDirectory => "[Errno 20] Not a directory"
    | .isDirectory => "[Errno 21] Is a directory") ++ ": " ++ Text.quoted path

/-- A step of the way to a field of a settings record. -/
inductive Step where
  | key (name : String)
  | index (i : Nat)
deriving DecidableEq, Repr

/-- What a field of a settings record breaks. -/
inductive Rule where
  | missing
  | text
  | wholeCharacters
  | number
  | numberText
  | whole
  | wholeText
  | wholeLength
  | wholePart
  | atLeast
  | atMost
  | list
  | tooShort
  | tooLong
  | choice
  | mapping
  | finite
  | value
deriving DecidableEq, Repr

/-- The name of a rule. -/
def Rule.name : Rule → String
  | missing => "missing"
  | text => "string_type"
  | wholeCharacters => "string_unicode"
  | number => "float_type"
  | numberText => "float_parsing"
  | whole => "int_type"
  | wholeText => "int_parsing"
  | wholeLength => "int_parsing_size"
  | wholePart => "int_from_float"
  | atLeast => "greater_than_equal"
  | atMost => "less_than_equal"
  | list => "list_type"
  | tooShort => "too_short"
  | tooLong => "too_long"
  | choice => "literal_error"
  | mapping => "model_type"
  | finite => "finite_number"
  | value => "value_error"

/-- A broken rule and where. -/
structure Issue where
  path : List Step
  rule : Rule
deriving DecidableEq, Repr

/-- An issue as data: the way to the field, and the name of the rule. -/
def Issue.toValue (i : Issue) : Value :=
  .record [("loc", .list (i.path.map fun
      | .key name => .text name
      | .index n => .int n)), ("type", .text i.rule.name)]

/-- The cause of a failure. -/
inductive Fault where
  /-- A value of the wrong type. -/
  | wrongType
  /-- An index outside a list. -/
  | noSuchIndex
  /-- An index that no list can have. -/
  | hugeIndex
  /-- A part that the thing does not have. -/
  | noSuchPart
  | divisionByZero
  | overflow
  /-- A text that is not a number. -/
  | notNumber (text : String)
  /-- A text that is not a whole number. -/
  | notInteger (text : String)
  /-- A text that is not a whole number in another base than ten. -/
  | notIntegerIn (base : Nat) (text : String)
  /-- A whole number that is too long to be written. -/
  | longNumber
  /-- A text of more digits than a whole number is read from. -/
  | longDigits (count : Nat)
  /-- No number where a whole number is needed. -/
  | nanInteger
  /-- An infinite angle. -/
  | infiniteAngle
  | zeroVector
  /-- A point with a number of coordinates that is neither one nor three. -/
  | pointSize (count : Nat)
  /-- A cross product of vectors that are not in the plane or in space. -/
  | crossDimension
  | singularSystem
  | intervalBounds (bounds : List Value)
  | tooManyAxes (count : Nat)
  | tooManySlots (count : Nat)
  | unknownStorage (text : String)
  /-- A key that a mapping does not hold. -/
  | missingKey (key : Value)
  | missingPlaces
  | badSuffix (suffix : String)
  | emptyFileName (path : String)
  /-- An entry that is not a pair, where a list was read as a mapping. -/
  | notPair (index length : Nat)
  | yearOutOfRange (year : Nat)
  | monthOutOfRange
  | dayOutOfRange
  | hourOutOfRange
  | minuteOutOfRange
  | secondOutOfRange
  /-- A zone that is a day or more ahead or behind. -/
  | zoneOutOfRange (minutes : Int)
  /-- A code that no character has. -/
  | noCharacter
  /-- Bytes that are no text. -/
  | notText
  /-- Characters of a text, from a place to another one, that are not taken where it is written. -/
  | unencodable (character : Char) (first last : Nat)
  /-- A path with a character that no path has. -/
  | brokenPath
  | file (fault : FileFault) (path : String)
  /-- A text that is no document. -/
  | unreadableDocument
  /-- Settings that break rules. -/
  | invalidSettings (issues : List Issue)
  /-- An action record that is not a mapping. -/
  | notRecord (kind : String)
  | unknownAction (tag : Value) (known : List String)
  | noVersion (action : String)
  | badVersion (action : String) (version : Value)
  | missingField (action field : String)
  /-- An action record with a field that cannot be read. -/
  | undecodable (action : String) (cause : Fault)
  | unreadableActions (path : String) (fault : Option (FileFault × String))
  | noActionList (path : String)
  | axisFrameCount (robot : Value) (count : Nat)
  | axisLimitCount (robot : Value) (count : Nat)
  | tooManyMechanisms (robot : Value) (count : Nat)
  | mechanismNumber (robot : Value) (number : Int)
  | sharedMechanismNumber (robot : Value) (numbers : List Int)
  | nonFiniteJoints
  | anonymousDeclaration
  | noConfigDirectory (path : String)
  | robotFile (path : String) (issues : List Issue)
  | generatorFile (path : String)
  | unknownRobot (name : Value) (available : List String)

/-- A computation that may fail. -/
abbrev Outcome := Except Fault

/-- Two computations in a row give a result when the first gives one and the second does with it. -/
theorem Outcome.bind_eq_ok {α β : Type} {x : Outcome α} {f : α → Outcome β} {b : β} :
    (x >>= f) = .ok b ↔ ∃ a, x = .ok a ∧ f a = .ok b := by
  cases x with
  | error e => simp [bind, Except.bind]
  | ok a => simp [bind, Except.bind]

/-- A changed result is the result of a computation that gives one. -/
theorem Outcome.map_eq_ok {α β : Type} {x : Outcome α} {f : α → β} {b : β} :
    f <$> x = .ok b ↔ ∃ a, x = .ok a ∧ f a = b := by
  cases x with
  | error e => simp [Functor.map, Except.map]
  | ok a => simp [Functor.map, Except.map]

/-- Returning a value gives it. -/
theorem Outcome.pure_eq_ok {α : Type} {a b : α} : (pure a : Outcome α) = .ok b ↔ a = b := by
  simp [pure, Except.pure]

/-- What follows a value gets the value. -/
@[simp]
theorem Outcome.ok_bind {α β : Type} (a : α) (f : α → Outcome β) :
    ((Except.ok a : Outcome α) >>= f) = f a := rfl

/-- A value is mapped. -/
@[simp]
theorem Outcome.ok_map {α β : Type} (a : α) (f : α → β) :
    f <$> (Except.ok a : Outcome α) = .ok (f a) := rfl

/-- What a computation gives can be compared without its faults. -/
theorem Outcome.toOption_eq_some {α : Type} {o : Outcome α} {a : α} :
    o.toOption = some a ↔ o = .ok a := by
  cases o <;> simp [Except.toOption]

/-- How two computations in a row run that keep a state when they fail. -/
theorem Outcome.run_bind {σ α β : Type} (x : ExceptT Fault (StateM σ) α)
    (f : α → ExceptT Fault (StateM σ) β) (s : σ) :
    (x >>= f).run s = match x.run s with
      | (.ok a, s') => (f a).run s'
      | (.error e, s') => (.error e, s') := by
  change (ExceptT.bind x f).run s = _
  simp only [ExceptT.bind, ExceptT.run, ExceptT.mk, bind, StateT.bind]
  rcases x s with ⟨outcome, s'⟩
  cases outcome <;> rfl

/-- A computation that keeps a state and gives something. -/
theorem Outcome.run_of_isOk {σ α : Type} {x : ExceptT Fault (StateM σ) α} {s : σ}
    (h : (x.run s).1.isOk = true) : ∃ a, x.run s = (.ok a, (x.run s).2) := by
  generalize x.run s = q at h ⊢
  obtain ⟨outcome, s'⟩ := q
  cases outcome with
  | error f => cases h
  | ok a => exact ⟨a, rfl⟩

/-- The kinds of causes. -/
inductive FaultKind where
  | type
  | index
  | part
  | zeroDivision
  | overflow
  | value
  | key
  | singular
  | file (fault : FileFault)
  | document
  | settings
  | record
  | robot
  | kinematics
  | generation
  | configuration
deriving DecidableEq, Repr

/-- The kind of a cause. -/
def Fault.kind : Fault → FaultKind
  | wrongType => .type
  | noSuchIndex | hugeIndex => .index
  | noSuchPart => .part
  | divisionByZero => .zeroDivision
  | overflow => .overflow
  | missingKey _ => .key
  | singularSystem => .singular
  | file f _ => .file f
  | unreadableDocument => .document
  | invalidSettings _ => .settings
  | notRecord _ | unknownAction .. | noVersion _ | badVersion .. | missingField .. | undecodable ..
  | unreadableActions .. | noActionList _ => .record
  | axisFrameCount .. | axisLimitCount .. | tooManyMechanisms .. | mechanismNumber ..
  | sharedMechanismNumber .. => .robot
  | nonFiniteJoints => .kinematics
  | anonymousDeclaration => .generation
  | noConfigDirectory _ | robotFile .. | generatorFile _ | unknownRobot .. => .configuration
  | _ => .value

/-- A message with details. -/
structure Report where
  message : String
  details : Value := .map []

/-- A message, and its details when there are any. -/
def Report.text (r : Report) : String :=
  if r.details.truthy then r.message ++ " - Details: " ++ r.details.toText else r.message

/-- The message of a cause without its details. -/
def Fault.message : Fault → String
  | wrongType => "TypeError"
  | noSuchIndex => "list index out of range"
  | hugeIndex => "cannot fit 'int' into an index-sized integer"
  | noSuchPart => "no such part"
  | divisionByZero => "division by zero"
  | overflow => "number too large"
  | notNumber s => "could not convert string to float: " ++ Text.quoted s
  | notInteger s => "invalid literal for int() with base 10: " ++ Text.quoted s
  | notIntegerIn base s =>
    "invalid literal for int() with base " ++ toString base ++ ": " ++ Text.quoted s
  | longNumber =>
    "Exceeds the limit (" ++ toString longestNumber ++ " digits) for integer string conversion; " ++
      "use sys.set_int_max_str_digits() to increase the limit"
  | longDigits n =>
    "Exceeds the limit (" ++ toString longestNumber ++ " digits) for integer string conversion: " ++
      "value has " ++ toString n ++ " digits; use sys.set_int_max_str_digits() to increase the " ++
      "limit"
  | nanInteger => "cannot convert float NaN to integer"
  | infiniteAngle => "math domain error"
  | zeroVector => "Cannot normalise a zero-length vector"
  | crossDimension =>
    "incompatible dimensions for cross product\n(dimension must be 2 or 3)"
  | pointSize n =>
    "operands could not be broadcast together with shapes (" ++ toString n ++ ",) (3,) "
  | singularSystem => "Singular matrix"
  | intervalBounds vs => "An interval needs exactly two bounds, got " ++ (Value.list vs).literal
  | tooManyAxes n => "A robot joint position has 6 values, got " ++ toString n
  | tooManySlots n => "An external joint position has 6 values, got " ++ toString n
  | unknownStorage s => Text.quoted s ++ " is not a valid VariableType"
  | missingKey key => key.literal
  | missingPlaces => "Format specifier missing precision"
  | badSuffix s => "Invalid suffix " ++ Text.quoted s
  | emptyFileName path => "PosixPath(" ++ Text.quoted path ++ ") has an empty name"
  | notPair i n =>
    "dictionary update sequence element #" ++ toString i ++ " has length " ++ toString n ++
      "; 2 is required"
  | yearOutOfRange y => "year " ++ toString y ++ " is out of range"
  | monthOutOfRange => "month must be in 1..12"
  | dayOutOfRange => "day is out of range for month"
  | hourOutOfRange => "hour must be in 0..23"
  | minuteOutOfRange => "minute must be in 0..59"
  | secondOutOfRange => "second must be in 0..59"
  | zoneOutOfRange minutes =>
    "offset must be a timedelta strictly between -timedelta(hours=24) and " ++
      "timedelta(hours=24), not " ++ Clock.spanLiteral minutes ++ "."
  | noCharacter => "chr() arg not in range(0x110000)"
  | notText => "unreadable text"
  | unencodable c first last =>
    "'utf-8' codec can't encode character" ++
      (if first == last then " " ++ Text.quoted (String.singleton c) ++ " in position " ++
          toString first
        else "s in position " ++ toString first ++ "-" ++ toString last) ++
      ": surrogates not allowed"
  | brokenPath => "embedded null byte"
  | file f path => f.message path
  | unreadableDocument => "unreadable document"
  | invalidSettings issues => toString issues.length ++ " validation errors"
  | notRecord _ => "Serialized action must be a mapping"
  | unknownAction tag _ => "Unknown action type: " ++ tag.toText
  | noVersion a => "Serialized " ++ a ++ " has no version tag"
  | badVersion a _ => "Serialized " ++ a ++ " has an invalid version tag"
  | missingField a f => "Serialized " ++ a ++ " is missing field '" ++ f ++ "'"
  | undecodable a cause => "Cannot decode " ++ a ++ ": " ++ cause.message
  | unreadableActions path fault =>
    "Cannot read action file " ++ path ++
      (match fault with
        | some (f, p) => ": " ++ f.message p
        | none => "")
  | noActionList path => "Action file " ++ path ++ " does not hold a list of actions"
  | axisFrameCount r _ => "Robot '" ++ r.toText ++ "' needs 6 internal axis frames"
  | axisLimitCount r _ => "Robot '" ++ r.toText ++ "' needs 6 internal axis limits"
  | tooManyMechanisms r _ => "Robot '" ++ r.toText ++ "' supports at most 6 external axes"
  | mechanismNumber _ n => "External axis number " ++ toString n ++ " is outside 0-5"
  | sharedMechanismNumber r _ => "Robot '" ++ r.toText ++ "' has duplicate external axis numbers"
  | nonFiniteJoints => "Cannot compute forward kinematics for non-finite joint values"
  | anonymousDeclaration => "Anonymous declarations cannot be registered"
  | noConfigDirectory path => "Configuration directory not found: " ++ path
  | robotFile path _ => "Failed to load robot config: " ++ path
  | generatorFile path => "Failed to load generator config: " ++ path
  | unknownRobot name _ => "Robot configuration not found: " ++ name.toText

/-- The details of a cause. -/
def Fault.details : Fault → Value
  | notRecord kind => .record [("got", .text kind)]
  | unknownAction _ known => .record [("available", .texts known)]
  | badVersion _ v => .record [("version", v)]
  | axisFrameCount _ n | axisLimitCount _ n | tooManyMechanisms _ n => .record [("count", .int n)]
  | sharedMechanismNumber _ ns => .record [("axis_numbers", .list (ns.map .int))]
  | unknownRobot _ available => .record [("available", .texts available)]
  | _ => .map []

/-- The message and the details of a cause. -/
def Fault.report (f : Fault) : Report :=
  ⟨f.message, f.details⟩

/-- Whether a cause is one of the program's own, and not of plain data or of the file system. -/
def Fault.isOwn (f : Fault) : Bool :=
  match f.kind with
  | .record | .robot | .kinematics | .generation | .configuration => true
  | _ => false

/-- The action that a record fault is about. -/
def Fault.action : Fault → Value
  | unknownAction tag _ => tag
  | noVersion a | badVersion a _ | missingField a _ | undecodable a _ => .text a
  | _ => .null

/-- The robot that a robot fault is about. -/
def Fault.robotName : Fault → Value
  | axisFrameCount r _ | axisLimitCount r _ | tooManyMechanisms r _ | mechanismNumber r _
  | sharedMechanismNumber r _ => r
  | _ => .null

/-- The broken rules behind a fault. -/
def Fault.issues : Fault → List Issue
  | invalidSettings issues | robotFile _ issues => issues
  | _ => []

end RobotProgram
