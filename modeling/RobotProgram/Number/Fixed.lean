import RobotProgram.Number.Binary

/-!
# Numbers with fixed decimal places

A number is rounded to a multiple of `10^-places`, a half going to the even multiple. Program text
drops the zeros at the end of the fraction, and writes a result of zero without a sign.
-/

namespace RobotProgram.Number

/-- The magnitude of a number in units of `10^-places`, rounded. -/
def units (places : Nat) (x : Dyadic) : Nat :=
  roundDiv (x.numerator * Nat.pow 10 places) x.denominator

/-- The last `places` digits of `n`, filled with zeros. -/
def fractionDigits (places n : Nat) : List Char :=
  let ds := Nat.toDigits 10 (n % Nat.pow 10 places)
  List.replicate (places - ds.length) '0' ++ ds

/-- `n` units of `10^-places` as text with exactly `places` decimals. -/
def unitsText (places n : Nat) : String :=
  toString (n / Nat.pow 10 places) ++
    (if places = 0 then "" else "." ++ String.ofList (fractionDigits places n))

/-- A number with exactly `places` decimals. -/
def fixed (places : Nat) (x : Float) : String :=
  match exact x with
  | .nan => "nan"
  | .infinite negative => if negative then "-inf" else "inf"
  | .finite d => (if d.negative then "-" else "") ++ unitsText places (units places d)

/-- A fraction without zeros at its end, and without its point when nothing is left of it. -/
def dropIdleFraction (cs : List Char) : List Char :=
  if cs.contains '.' then
    ((cs.reverse.dropWhile (· == '0')).dropWhile (· == '.')).reverse
  else cs

/-- A number in program text: at most `places` decimals, no idle zeros, no negative zero. -/
def render (places : Nat) (x : Float) : String :=
  let text := String.ofList (dropIdleFraction (fixed places x).toList)
  if text == "-0" || text == "" then "0" else text

/-- Decimals of a position, an angle or a speed in program text. -/
def positionPlaces : Nat := 2

/-- Decimals of a quaternion in program text. -/
def quaternionPlaces : Nat := 6

/-- Decimals of a time in program text. -/
def timePlaces : Nat := 3

/-- A bracketed list of numbers in program text. -/
def renderList (places : Nat) (xs : List Float) : String :=
  "[" ++ String.intercalate ", " (xs.map (render places)) ++ "]"

end RobotProgram.Number
