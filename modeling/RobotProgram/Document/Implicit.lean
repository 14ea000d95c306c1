import RobotProgram.Value.Convert

/-!
# What a plain text means

A text without quotes may stand for nothing, a truth value, a number, a day or a time. A whole
number has a base given by its first characters, or is written in sixties with colons; a
floating-point number has a point, and its exponent has a sign. Underscores between digits say
nothing.

What a text looks like is one question (`Implicit.ofText`), and its value another one
(`Implicit.value`): a text that looks like a number may have no digits or too many of them, and one
that looks like a day may be none of the calendar. A tag asks for the value of a text that need not
look like it.
-/

namespace RobotProgram.Document

open RobotProgram.Number (takeSign)

/-! ### Words -/

/-- The spellings of a word: small, with a capital, all capitals. -/
def spellings (word : String) : List String :=
  [word, word.capitalize, word.map Char.toUpper]

/-- The truth value of a word. -/
def truth? (s : String) : Option Bool :=
  if (["yes", "true", "on"].flatMap spellings).contains s then some true
  else if (["no", "false", "off"].flatMap spellings).contains s then some false
  else none

/-- The texts for nothing. -/
def isNothing (s : String) : Bool :=
  s == "" || s == "~" || (spellings "null").contains s

/-! ### Numbers -/

/-- The value of a digit in a base, for digits of any script. -/
def digitIn? (base : Nat) (c : Char) : Option Nat :=
  let n := c.toNat
  let v :=
    match Text.digitValue? c with
    | some v => v
    | none =>
      if 'a' ≤ c ∧ c ≤ 'z' then n - 'a'.toNat + 10
      else if 'A' ≤ c ∧ c ≤ 'Z' then n - 'A'.toNat + 10
      else base
  if v < base then some v else none

/-- Whether a text is some digits of a base and underscores. -/
def isDigits (base : Nat) (cs : List Char) : Bool :=
  !cs.isEmpty && cs.all fun c => c == '_' || (c.isAlphanum && (digitIn? base c).isSome)

/-- The pieces between colons, where `piece` holds the characters of the current one backwards. -/
def colonPieces (piece : List Char) : List Char → List (List Char)
  | [] => [piece.reverse]
  | c :: cs => if c == ':' then piece.reverse :: colonPieces [] cs else colonPieces (c :: piece) cs

/-- Whether a piece is a number below sixty, of one or two digits. -/
def isSixtieth : List Char → Bool
  | [c] => c.isDigit
  | [c, d] => '0' ≤ c && c ≤ '5' && d.isDigit
  | _ => false

/-- Whether a text is a digit followed by digits and underscores. -/
def isRun : List Char → Bool
  | [] => false
  | c :: cs => c.isDigit && isDigits 10 (c :: cs)

/-- Whether a text looks like a whole number without sign. -/
def isNatural : List Char → Bool
  | ['0'] => true
  | '0' :: 'b' :: cs => isDigits 2 cs
  | '0' :: 'x' :: cs => isDigits 16 cs
  | '0' :: cs => isDigits 8 cs
  | cs =>
    match colonPieces [] cs with
    | first :: more => isRun first && more.all isSixtieth
    | [] => false

/-- Whether a text looks like a whole number. -/
def isWhole (cs : List Char) : Bool := isNatural (takeSign cs).2

/-- Whether a text is nothing, or an exponent with its sign. -/
def isExponent : List Char → Bool
  | [] => true
  | e :: s :: ds =>
    (e == 'e' || e == 'E') && (s == '+' || s == '-') && !ds.isEmpty && ds.all Char.isDigit
  | _ => false

/-- Whether a text is a fraction, which may be empty, and perhaps an exponent. -/
def isFraction (cs : List Char) : Bool :=
  isExponent (cs.dropWhile fun d => d.isDigit || d == '_')

/-- Whether a text looks like a number in sixties whose last piece has a point. -/
def isSixties (cs : List Char) : Bool :=
  match (colonPieces [] cs).reverse with
  | last :: middle :: more =>
    let whole := last.takeWhile (· != '.')
    ((middle :: more).dropLast).all isSixtieth && isRun ((middle :: more).getLastD []) &&
      isSixtieth whole && last.length != whole.length &&
      (last.drop (whole.length + 1)).all fun d => d.isDigit || d == '_'
  | _ => false

/-- Whether a text looks like a floating-point number after its sign, if it has one. -/
def isMagnitude (signed : Bool) (cs : List Char) : Bool :=
  let whole := cs.takeWhile (· != '.')
  if (spellings "inf").contains (String.ofList (cs.drop 1)) && cs.head? == some '.' then true
  else if !signed && [".nan", ".NaN", ".NAN"].contains (String.ofList cs) then true
  else if whole.contains ':' then isSixties cs
  else
    match cs.drop whole.length with
    | '.' :: rest =>
      (if whole.isEmpty then !signed && (rest.head?.any Char.isDigit) else isRun whole) &&
        isFraction rest
    | _ => false

/-- Whether a text looks like a floating-point number. -/
def isReal : List Char → Bool
  | '-' :: cs | '+' :: cs => isMagnitude true cs
  | cs => isMagnitude false cs

/-- The sign of a number, whose text must not be empty, and the rest. -/
def signed (cs : List Char) : Outcome (Bool × List Char) :=
  if cs.isEmpty then .error .noSuchIndex else .ok (takeSign cs)

/-- The number of a text of digits in a base that is a power of two: blanks around it, a sign and
the mark of the base say nothing. -/
def inBase (base : Nat) (mark : Char) (cs : List Char) : Outcome Int :=
  let (negative, body) := takeSign (Text.trimChars cs)
  let body := match body with
    | '0' :: c :: ds => if c == mark || c == mark.toUpper then ds else body
    | _ => body
  match body.mapM (digitIn? base) with
  | some (d :: ds) =>
    let n : Nat := (d :: ds).foldl (fun n d => base * n + d) 0
    .ok (if negative then -n else n)
  | _ => .error (.notIntegerIn base (String.ofList cs))

/-- Numbers in sixties. -/
def inSixties {α : Type} [Add α] [Mul α] (zero one sixty : α) (pieces : List α) : α :=
  (pieces.reverse.foldl (fun (sum, place) x => (sum + x * place, place * sixty)) (zero, one)).1

/-- The whole number of a text after its sign. -/
def wholeOfText : List Char → Outcome Int
  | [] => .error .noSuchIndex
  | ['0'] => .ok 0
  | '0' :: 'b' :: ds => inBase 2 'b' ds
  | '0' :: 'x' :: ds => inBase 16 'x' ds
  | '0' :: ds => inBase 8 'o' ('0' :: ds)
  | cs =>
    if cs.contains ':' then
      inSixties 0 1 60 <$> (colonPieces [] cs).mapM fun p => Value.integerOfText (String.ofList p)
    else Value.integerOfText (String.ofList cs)

/-- The whole number of a text, which need not look like one. -/
def wholeValue (s : String) : Outcome Int := do
  let (negative, cs) ← signed (s.toList.filter (· != '_'))
  let n ← wholeOfText cs
  return if negative then -n else n

/-- The floating-point number of a text after its sign. -/
def realOfText (cs : List Char) : Outcome Float :=
  let read (cs : List Char) : Outcome Float := (Value.text (String.ofList cs)).number
  if cs == ".inf".toList then .ok (1.0 / 0.0)
  else if cs == ".nan".toList then .ok (0.0 / 0.0)
  else if cs.contains ':' then inSixties 0.0 1.0 60.0 <$> (colonPieces [] cs).mapM read
  else read cs

/-- The floating-point number of a text, which need not look like one. -/
def realValue (s : String) : Outcome Float := do
  let (negative, cs) ← signed ((s.toList.filter (· != '_')).map Char.toLower)
  let x ← realOfText cs
  return if negative then -x else x

/-! ### Days and times -/

/-- A day, perhaps with a time, as it is written. -/
structure Stamp where
  year : Nat
  month : Nat
  day : Nat
  clock : Option Clock := none

/-- The number of digits. -/
def numberOf (cs : List Char) : Nat := Number.ofDigits (cs.map fun c => c.toNat - '0'.toNat)

/-- Whether a text has digits where `shape` has a zero, and the characters of `shape` elsewhere. -/
def fits : (shape cs : List Char) → Bool
  | [], [] => true
  | s :: ss, c :: cs => (if s == '0' then c.isDigit else c == s) && fits ss cs
  | _, _ => false

/-- One or two digits, and the rest. -/
def oneOrTwo? : List Char → Option (Nat × List Char)
  | c :: d :: cs =>
    if c.isDigit && d.isDigit then some (numberOf [c, d], cs)
    else if c.isDigit then some (numberOf [c], d :: cs)
    else none
  | [c] => if c.isDigit then some (numberOf [c], []) else none
  | [] => none

/-- The rest after a character. -/
def after? (c : Char) : List Char → Option (List Char)
  | d :: cs => if c == d then some cs else none
  | [] => none

/-- Whether a character stands between a day and its time, or between a time and its zone. -/
def isGap (c : Char) : Bool := c == ' ' || c == '\t'

/-- A zone: nothing, or `Z`, or hours with a sign and perhaps minutes. -/
def zone? (cs : List Char) : Option (Option Int) :=
  match cs.dropWhile isGap with
  | [] => if cs.isEmpty then some none else none
  | ['Z'] => some (some 0)
  | s :: rest => do
    guard (s == '+' || s == '-')
    let (hours, rest) ← oneOrTwo? rest
    guard (rest.isEmpty || fits ":00".toList rest)
    let minutes : Int := hours * 60 + numberOf (rest.drop 1)
    return some (if s == '-' then -minutes else minutes)

/-- A time of the day, perhaps with a fraction, of which six digits count, and a zone. -/
def clock? (cs : List Char) : Option Clock := do
  let (hour, rest) ← oneOrTwo? cs
  guard (fits ":00:00".toList (rest.take 6))
  let (fraction, ending) := match rest.drop 6 with
    | '.' :: more => (more.takeWhile Char.isDigit, more.dropWhile Char.isDigit)
    | ending => ([], ending)
  return {
    hour
    minute := numberOf ((rest.drop 1).take 2)
    second := numberOf ((rest.drop 4).take 2)
    micro := numberOf ((fraction ++ List.replicate 6 '0').take 6)
    zone := ← zone? ending }

/-- A day, or a day and a time after a mark or blanks. -/
def stamp? (cs : List Char) : Option Stamp := do
  guard (fits "0000-".toList (cs.take 5))
  let (month, rest) ← oneOrTwo? (cs.drop 5)
  let (day, time) ← oneOrTwo? (← after? '-' rest)
  let stamp : Stamp := { year := numberOf (cs.take 4), month, day }
  match time with
  | [] => if cs.length == 10 then return stamp else none
  | c :: more =>
    if c == 'T' || c == 't' then return { stamp with clock := ← clock? more }
    else if isGap c then return { stamp with clock := ← clock? (more.dropWhile isGap) }
    else none

namespace Stamp

/-- A zone must be less than a day away. -/
def checkZone (c : Clock) : Outcome Unit :=
  match c.zone with
  | some minutes => if minutes.natAbs < 1440 then .ok () else .error (.zoneOutOfRange minutes)
  | none => .ok ()

/-- A day must be one of the calendar. -/
def checkDay (s : Stamp) : Outcome Unit :=
  if s.year < 1 then .error (.yearOutOfRange s.year)
  else if s.month < 1 || 12 < s.month then .error .monthOutOfRange
  else if s.day < 1 || Calendar.daysIn s.year s.month < s.day then .error .dayOutOfRange
  else .ok ()

/-- A time must be one of the day. -/
def checkTime (c : Clock) : Outcome Unit :=
  if 23 < c.hour then .error .hourOutOfRange
  else if 59 < c.minute then .error .minuteOutOfRange
  else if 59 < c.second then .error .secondOutOfRange
  else .ok ()

/-- The value of a day, or of a day and a time. -/
def value (s : Stamp) : Outcome Value :=
  match s.clock with
  | none => do
    s.checkDay
    return .atom (.date s.year s.month s.day)
  | some c => do
    checkZone c
    s.checkDay
    checkTime c
    return .atom (.moment s.year s.month s.day c)

end Stamp

/-! ### All together -/

/-- What a plain text looks like. -/
inductive Implicit where
  | null
  | bool (b : Bool)
  | whole
  | real
  | stamp (s : Stamp)
  /-- The key that merges mappings. -/
  | merge
  /-- The key of a default value. -/
  | default
  | text

/-- What a plain text looks like. -/
def Implicit.ofText (s : String) : Implicit :=
  let cs := s.toList
  match truth? s, isReal cs, isWhole cs, stamp? cs with
  | some b, _, _, _ => .bool b
  | _, true, _, _ => .real
  | _, _, true, _ => .whole
  | _, _, _, some s => .stamp s
  | _, _, _, _ =>
    if isNothing s then .null
    else if s == "<<" then .merge
    else if s == "=" then .default
    else .text

/-- Whether a plain text stands for itself. -/
def isText (s : String) : Bool :=
  match Implicit.ofText s with
  | .text => true
  | _ => false

/-- The value of a plain text. -/
def Implicit.value (s : String) : Outcome Value :=
  match Implicit.ofText s with
  | .null => .ok .null
  | .bool b => .ok (.bool b)
  | .whole => .int <$> wholeValue s
  | .real => .float <$> realValue s
  | .stamp st => st.value
  | .merge | .default => .error .unreadableDocument
  | .text => .ok (.text s)

end RobotProgram.Document
