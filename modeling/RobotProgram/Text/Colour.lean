/-!
# Codes of colours

A terminal is told colours, and where to write, by codes inside a text: an escape character, an open
bracket, numbers and a letter.
-/

namespace RobotProgram.Text

/-- The characters of the numbers in a code. -/
def isCodeNumber (c : Char) : Bool := c == ';' || c == '?' || c.isDigit

/-- The length of the code that a text starts with, if it starts with one. -/
def colourCode? : List Char → Option Nat
  | '\x1b' :: '[' :: cs =>
    let numbers := cs.takeWhile isCodeNumber
    match cs.drop numbers.length with
    | c :: _ => if c.isAlpha then some (numbers.length + 3) else none
    | [] => none
  | _ => none

/-- Characters without the codes among them, after `skip` characters of a code. -/
def dropCodes : (skip : Nat) → List Char → List Char
  | _, [] => []
  | skip + 1, _ :: cs => dropCodes skip cs
  | 0, c :: cs =>
    match colourCode? (c :: cs) with
    | some n => dropCodes (n - 1) cs
    | none => c :: dropCodes 0 cs

/-- A text without the codes of colours. -/
def uncoloured (s : String) : String := String.ofList (dropCodes 0 s.toList)

end RobotProgram.Text
