/-!
# Halves of pairs

A text may hold half of a surrogate pair by itself, which is no character and which no file takes.
The last private characters stand for the halves, each for one, and so do not stand for themselves.
-/

namespace RobotProgram.Text

/-- The code of the first half. -/
def firstHalf : Nat := 0xD800

/-- The code of the character that stands for the first half. -/
def firstStandIn : Nat := 0x10F800

/-- The character of a code, where a private one stands for half of a pair. -/
def ofCode (n : Nat) : Char :=
  if firstHalf ≤ n ∧ n < 0xE000 then Char.ofNat (n - firstHalf + firstStandIn) else Char.ofNat n

/-- The half that a character stands for. -/
def half? (c : Char) : Option Nat :=
  if firstStandIn ≤ c.toNat then some (c.toNat - firstStandIn + firstHalf) else none

/-- Whether a text holds no half of a pair. -/
def isWhole (s : String) : Bool := s.toList.all fun c => (half? c).isNone

end RobotProgram.Text
