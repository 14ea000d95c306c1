/-!
# Blanks and lines

Which characters count as blank, trimming, and how text falls into lines.
-/

namespace RobotProgram.Text

/-- The blank characters of Unicode, with the control characters that separate records. -/
def isBlank (c : Char) : Bool :=
  let n := c.toNat
  (9 ≤ n && n ≤ 13) || (28 ≤ n && n ≤ 32) || n == 133 || n == 160 || n == 5760 ||
    (8192 ≤ n && n ≤ 8202) || n == 8232 || n == 8233 || n == 8239 || n == 8287 || n == 12288

/-- Text without the characters of a class at its end. -/
def dropEnd (p : Char → Bool) (s : String) : String :=
  String.ofList (s.toList.reverse.dropWhile p).reverse

/-- Text without blanks at its end. -/
def trimEnd (s : String) : String :=
  dropEnd isBlank s

/-- Characters without blanks at either end. -/
def trimChars (cs : List Char) : List Char :=
  ((cs.dropWhile isBlank).reverse.dropWhile isBlank).reverse

/-- Text without blanks at either end. -/
def trim (s : String) : String :=
  String.ofList (trimChars s.toList)

/-- The characters that end a line. -/
def isLineEnd (c : Char) : Bool :=
  let n := c.toNat
  (10 ≤ n && n ≤ 13) || (28 ≤ n && n ≤ 30) || n == 133 || n == 8232 || n == 8233

/-- The lines of `cs`, where `line` holds the characters of the current line backwards. A carriage
return and the line feed after it end one line, and an empty last line is no line. -/
def linesFrom (line : List Char) : List Char → List String
  | [] => if line.isEmpty then [] else [String.ofList line.reverse]
  | '\r' :: '\n' :: cs => String.ofList line.reverse :: linesFrom [] cs
  | c :: cs =>
    if isLineEnd c then String.ofList line.reverse :: linesFrom [] cs else linesFrom (c :: line) cs

/-- The lines of a text. -/
def lines (s : String) : List String :=
  linesFrom [] s.toList

end RobotProgram.Text
