import RobotProgram.Number.Binary

/-!
# Decimal digits of a number

The fewest decimal digits that read back as the same floating-point number, a given number of
significant digits, and the layouts that turn digits into text.

Several decimals lie in the interval of reals that round to a number. On the grid with the fewest
digits that has one, the nearest to the number is taken.
-/

namespace RobotProgram.Number

/-- The decimal `d₁.d₂d₃… · 10^exponent`. -/
structure Decimal where
  digits : List Char
  exponent : Int
deriving DecidableEq, Repr

/-- The decimal exponent of a positive rational: `10^e ≤ n / d < 10^(e+1)`. It counts the digits of
`n / d · 10^400`, which is at least one for every floating-point number. -/
def decimalExponent (n d : Nat) : Int :=
  ((Nat.toDigits 10 (n * Nat.pow 10 400 / d)).length : Int) - 401

/-- The numerator and denominator of `n / d / 10^p`. -/
def scaleDown (n d : Nat) (p : Int) : Nat × Nat :=
  (n * Nat.pow 10 (-p).toNat, d * Nat.pow 10 p.toNat)

/-- Whether the rational `c · 10^p` rounds to `x`: it lies between the midpoints to the neighbours
of `x`, ends included when the mantissa is even. Below a power of two the lower neighbour is half
as far. -/
def readsBack (x : Dyadic) (c : Nat) (p : Int) : Bool :=
  let narrow := x.mantissa == Nat.pow 2 52 && decide (-1074 < x.exponent)
  -- in units of a quarter of the last place
  let low := 4 * x.mantissa - (if narrow then 1 else 2)
  let high := 4 * x.mantissa + 2
  let quarter := x.exponent - 2
  let n := c * Nat.pow 10 p.toNat * Nat.pow 2 (-quarter).toNat
  let d := Nat.pow 10 (-p).toNat * Nat.pow 2 quarter.toNat
  if x.mantissa % 2 = 0 then low * d ≤ n && n ≤ high * d else low * d < n && n < high * d

/-- The decimal with integer significand `c` on the grid of `10^p`, without trailing zeros. -/
def Decimal.ofGrid (c : Nat) (p : Int) : Decimal :=
  let ds := Nat.toDigits 10 c
  let kept := (ds.reverse.dropWhile (· == '0')).reverse
  ⟨kept, p + ds.length - 1⟩

/-- The decimal on the grid of `10^p` next to `x` that reads back as `x`: the nearer one of the two
neighbours, the even one on a tie. -/
def onGrid? (x : Dyadic) (p : Int) : Option Decimal :=
  let (n, d) := scaleDown x.numerator x.denominator p
  let near := roundDiv n d
  let other := if near * d ≤ n then near + 1 else near - 1
  if readsBack x near p then some (.ofGrid near p)
  else if readsBack x other p then some (.ofGrid other p)
  else none

/-- The decimal of at most `k` more digits than tried so far that reads back as `x`. -/
def shortestFrom (x : Dyadic) (e : Int) : Nat → Decimal
  | 0 =>
    let (n, d) := scaleDown x.numerator x.denominator (e - 16)
    .ofGrid (roundDiv n d) (e - 16)
  | k + 1 => (onGrid? x (e - (16 - k))).getD (shortestFrom x e k)

/-- The fewest digits that read back as a positive number. -/
def shortest (x : Dyadic) : Decimal :=
  shortestFrom x (decimalExponent x.numerator x.denominator) 17

/-- A positive number rounded to `k` significant digits, a half going to the even digit. -/
def significant (k : Nat) (x : Dyadic) : Decimal :=
  let p := decimalExponent x.numerator x.denominator - (k - 1)
  let (n, d) := scaleDown x.numerator x.denominator p
  .ofGrid (roundDiv n d) p

/-- How digits are laid out. -/
structure Layout where
  /-- Exponents from -4 up to this one, exclusive, are written positionally. -/
  positionalBelow : Int
  /-- A whole number keeps a fraction `.0` in positional notation. -/
  wholeFraction : Bool
  /-- A one-digit significand keeps a fraction `.0` before an exponent. -/
  significandFraction : Bool
  nan : String
  infinity : String

/-- An exponent with its sign and at least two digits. -/
def exponentText (e : Int) : String :=
  let ds := toString e.natAbs
  (if e < 0 then "e-" else "e+") ++ (if ds.length < 2 then "0" ++ ds else ds)

/-- A positive decimal in a layout. -/
def Layout.decimal (l : Layout) (x : Decimal) : String :=
  let k : Int := x.digits.length
  if -4 ≤ x.exponent && decide (x.exponent < l.positionalBelow) then
    if x.exponent < 0 then
      "0." ++ String.ofList (List.replicate (-x.exponent - 1).toNat '0' ++ x.digits)
    else if k ≤ x.exponent + 1 then
      String.ofList (x.digits ++ List.replicate (x.exponent + 1 - k).toNat '0') ++
        (if l.wholeFraction then ".0" else "")
    else
      let n := (x.exponent + 1).toNat
      String.ofList (x.digits.take n) ++ "." ++ String.ofList (x.digits.drop n)
  else
    let significand :=
      match x.digits with
      | [d] => String.singleton d ++ (if l.significandFraction then ".0" else "")
      | ds => String.ofList (ds.take 1) ++ "." ++ String.ofList (ds.drop 1)
    significand ++ exponentText x.exponent

/-- A number in a layout, where `digits` picks the digits of a positive number. -/
def Layout.write (l : Layout) (digits : Dyadic → Decimal) (x : Float) : String :=
  match exact x with
  | .nan => l.nan
  | .infinite negative => (if negative then "-" else "") ++ l.infinity
  | .finite d =>
    (if d.negative then "-" else "") ++ l.decimal (if d.mantissa = 0 then ⟨['0'], 0⟩ else digits d)

/-- Numbers in messages and records: positional below `10^16`. -/
def plainLayout : Layout := ⟨16, true, false, "nan", "inf"⟩

/-- Numbers in tables: six significant digits, positional below a million, no idle fraction. -/
def tableLayout : Layout := ⟨6, false, false, "nan", "inf"⟩

/-- Numbers in documents, where an exponent needs a fraction before it. -/
def documentLayout : Layout := ⟨16, true, true, ".nan", ".inf"⟩

/-- A number with the fewest digits that read back. -/
def plain (x : Float) : String :=
  plainLayout.write shortest x

/-- A number with six significant digits. -/
def table (x : Float) : String :=
  tableLayout.write (significant 6) x

/-- A number as a document holds it. -/
def document (x : Float) : String :=
  documentLayout.write shortest x

end RobotProgram.Number
