import RobotProgram.Text.Blank
import RobotProgram.Text.Digit

/-!
# Reading numbers

The grammar of a number in text: blanks around it, a sign, decimal digits of any script with single
underscores between them, a fraction, an exponent; or a name of infinity or of no number.
-/

namespace RobotProgram.Number

open RobotProgram.Text (isDigit digitValue? trimChars)

/-- Removes the underscores that stand between two digits; none is allowed elsewhere. -/
def dropUnderscores (previousDigit : Bool) : List Char → Option (List Char)
  | [] => some []
  | '_' :: c :: cs =>
    if previousDigit && isDigit c then (dropUnderscores true cs).map (c :: ·) else none
  | c :: cs => if c == '_' then none else (dropUnderscores (isDigit c) cs).map (c :: ·)

/-- The longest run of digits at the start, as values, and the rest. -/
def spanDigits : List Char → List Nat × List Char
  | [] => ([], [])
  | c :: cs =>
    match digitValue? c with
    | some v => let (vs, rest) := spanDigits cs; (v :: vs, rest)
    | none => ([], c :: cs)

/-- The natural number that a list of digits stands for. -/
def ofDigits (ds : List Nat) : Nat :=
  ds.foldl (fun n d => 10 * n + d) 0

/-- A sign and the rest. -/
def takeSign : List Char → Bool × List Char
  | '-' :: cs => (true, cs)
  | '+' :: cs => (false, cs)
  | cs => (false, cs)

/-- The nearest number to `m · 10^e`. Far outside the range of floating-point numbers the answer
does not need the power. -/
def ofDecimal (m : Nat) (e : Int) : Float :=
  let top : Int := (Nat.toDigits 10 m).length + e
  if m = 0 || top < -400 then 0.0
  else if 400 < top then 1.0 / 0.0
  else if e < 0 then Float.ofScientific m true e.natAbs
  else Float.ofScientific (m * Nat.pow 10 e.natAbs) false 0

/-- A decimal without sign: digits, perhaps a point, perhaps an exponent. -/
def readDecimal? (cs : List Char) : Option Float :=
  let (whole, rest) := spanDigits cs
  let (fraction, rest) :=
    match rest with
    | '.' :: rest => spanDigits rest
    | rest => ([], rest)
  if whole.isEmpty && fraction.isEmpty then none
  else
    let m := ofDigits (whole ++ fraction)
    match rest with
    | [] => some (ofDecimal m (-fraction.length))
    | c :: rest =>
      if c == 'e' || c == 'E' then
        let (negative, rest) := takeSign rest
        let (es, rest) := spanDigits rest
        if es.isEmpty || !rest.isEmpty then none
        else
          let e : Int := ofDigits es
          some (ofDecimal m ((if negative then -e else e) - fraction.length))
      else none

/-- The names of infinity. -/
def isInfinityName (cs : List Char) : Bool :=
  let name := String.ofList (cs.map Char.toLower)
  name == "inf" || name == "infinity"

/-- The number that a text stands for. -/
def read? (s : String) : Option Float :=
  let (negative, cs) := takeSign (trimChars s.toList)
  let magnitude :=
    if isInfinityName cs then some (1.0 / 0.0)
    else if String.ofList (cs.map Char.toLower) == "nan" then some (0.0 / 0.0)
    else (dropUnderscores false cs).bind readDecimal?
  magnitude.map fun x => if negative then -x else x

/-- The integer that a text stands for. -/
def readInt? (s : String) : Option Int := do
  let (negative, cs) := takeSign (trimChars s.toList)
  let (ds, rest) := spanDigits (← dropUnderscores false cs)
  if ds.isEmpty || !rest.isEmpty then none
  else
    let n : Int := ofDigits ds
    some (if negative then -n else n)

/-- The number of decimal digits in a text. -/
def digitCount (s : String) : Nat := (s.toList.filter isDigit).length

end RobotProgram.Number
