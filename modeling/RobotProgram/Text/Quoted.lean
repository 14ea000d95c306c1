import RobotProgram.Text.Half
import RobotProgram.Text.Printable

/-!
# Quoted text

The literal form of a text: between single quotes, or between double quotes when it holds a single
quote and no double one. The quote and the backslash are escaped, and so is every character that is
not printable.
-/

namespace RobotProgram.Text

/-- The digits of `n` in base sixteen, filled with zeros to `width`. -/
def hex (width n : Nat) : String :=
  let ds := Nat.toDigits 16 n
  String.ofList (List.replicate (width - ds.length) '0' ++ ds)

/-- One character of a text quoted with `quote`. -/
def escapeChar (quote c : Char) : String :=
  if c == quote || c == '\\' then String.ofList ['\\', c]
  else if c == '\n' then "\\n"
  else if c == '\r' then "\\r"
  else if c == '\t' then "\\t"
  else if isPrintable c then String.singleton c
  else
    let n := (half? c).getD c.toNat
    if n < 256 then "\\x" ++ hex 2 n
    else if n < 65536 then "\\u" ++ hex 4 n
    else "\\U" ++ hex 8 n

/-- The quote that suits a text. -/
def quoteFor (s : String) : Char :=
  if s.toList.contains '\'' && !s.toList.contains '"' then '"' else '\''

/-- The literal form of a text. -/
def quoted (s : String) : String :=
  let q := quoteFor s
  String.singleton q ++ String.join (s.toList.map (escapeChar q)) ++ String.singleton q

end RobotProgram.Text
