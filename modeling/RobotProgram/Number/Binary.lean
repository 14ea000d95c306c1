/-!
# Exact values of floating-point numbers

A finite floating-point number is a dyadic rational, `±m · 2^e`. Everything that prints, reads or
rounds a number works on this exact value, and never on another rounded number.
-/

namespace RobotProgram.Number

/-- The number `m · 2^e`, or its negation. -/
structure Dyadic where
  negative : Bool
  mantissa : Nat
  exponent : Int
deriving DecidableEq, Repr

/-- The magnitude of a dyadic number is `numerator / denominator`. -/
def Dyadic.numerator (d : Dyadic) : Nat :=
  d.mantissa * Nat.pow 2 d.exponent.toNat

/-- The power of two below the fraction bar. -/
def Dyadic.denominator (d : Dyadic) : Nat :=
  Nat.pow 2 (-d.exponent).toNat

/-- What a floating-point number stands for. -/
inductive Exact where
  | finite (d : Dyadic)
  | infinite (negative : Bool)
  | nan
deriving DecidableEq, Repr

/-- The value behind the 64 bits of a floating-point number: a sign, eleven exponent bits and 52
fraction bits. -/
def ofBits (bits : Nat) : Exact :=
  let negative := decide (Nat.pow 2 63 ≤ bits)
  let e : Nat := bits / Nat.pow 2 52 % 2048
  let f : Nat := bits % Nat.pow 2 52
  if e = 2047 then
    if f = 0 then .infinite negative else .nan
  else if e = 0 then .finite ⟨negative, f, -1074⟩
  else .finite ⟨negative, f + Nat.pow 2 52, (e : Int) - 1075⟩

/-- The exact value of a floating-point number. -/
def exact (x : Float) : Exact :=
  ofBits x.toBits.toNat

/-- The quotient `n / d` rounded to the nearest natural number, a half going to the even one. -/
def roundDiv (n d : Nat) : Nat :=
  let q := n / d
  let r := n % d
  if 2 * r < d then q
  else if d < 2 * r then q + 1
  else if q % 2 = 0 then q else q + 1

/-- The floating-point number nearest to an integer, a half going to the even mantissa, unless the
integer is too large for one. -/
def ofInt? (n : Int) : Option Float :=
  let m := n.natAbs
  if m < Nat.pow 2 1024 - Nat.pow 2 970 then
    let x := Float.ofNat m
    some (if n < 0 then -x else x)
  else none

/-- The exact order of a floating-point number and an integer, if the first is a number. -/
def compareInt (x : Float) (n : Int) : Option Ordering :=
  match exact x with
  | .nan => none
  | .infinite negative => some (if negative then .lt else .gt)
  | .finite d =>
    let num : Int := if d.negative then -(d.numerator : Int) else d.numerator
    some (compare num (n * d.denominator))

/-- A number without its fraction. -/
def truncate (d : Dyadic) : Int :=
  let q : Int := d.numerator / d.denominator
  if d.negative then -q else q

/-- `m` shifted left by `k` places, or right when `k` is negative. -/
def shift (m : Nat) (k : Int) : Nat :=
  if 0 ≤ k then m * Nat.pow 2 k.toNat else m / Nat.pow 2 (-k).toNat

/-- The floating-point number `m · 2^e`, for one that needs no rounding. -/
def ofDyadic (m : Nat) (e : Int) : Float :=
  let top : Int := (Nat.log2 m : Int) + e
  if m = 0 then 0.0
  else if top < -1022 then Float.ofBits (shift m (e + 1074)).toUInt64
  else
    let fraction := shift m (52 - (Nat.log2 m : Int)) - Nat.pow 2 52
    Float.ofBits ((top + 1023).toNat * Nat.pow 2 52 + fraction).toUInt64

/-- The remainder of the magnitudes of two finite numbers, which is always representable. -/
def remainder (a b : Dyadic) : Float :=
  let e := min a.exponent b.exponent
  ofDyadic (shift a.mantissa (a.exponent - e) % shift b.mantissa (b.exponent - e)) e

/-- The remainder of a division rounded toward minus infinity: it has the sign of the divisor, and
is not a number when the dividend is infinite. -/
def floorMod (x y : Float) : Float :=
  match exact x, exact y with
  | .finite a, .finite b =>
    if b.mantissa = 0 then 0.0 / 0.0
    else
      let r := remainder a b
      if r == 0.0 then (if b.negative then -0.0 else 0.0)
      else
        let r := if a.negative then -r else r
        if a.negative == b.negative then r else r + y
  | .finite a, .infinite negative =>
    if a.mantissa = 0 then (if negative then -0.0 else 0.0)
    else if a.negative == negative then x else y
  | _, _ => 0.0 / 0.0

end RobotProgram.Number
