import RobotProgram.Number.Reader
import RobotProgram.Value

/-!
# JSON text

Plain data as one line of JSON, in ASCII alone, and read back. A number without fraction and
exponent is whole, any other is a floating-point number; of two fields with one name the last value
counts.
-/

namespace RobotProgram.Json

/-! ### Writing -/

/-- A code unit in four hexadecimal digits. -/
def unitText (n : Nat) : String := "\\u" ++ Text.hex 4 n

/-- A character inside quotes. -/
def escape (c : Char) : String :=
  match c with
  | '"' => "\\\""
  | '\\' => "\\\\"
  | '\n' => "\\n"
  | '\r' => "\\r"
  | '\t' => "\\t"
  | '\x08' => "\\b"
  | '\x0c' => "\\f"
  | c =>
    let n := (Text.half? c).getD c.toNat
    if 32 ≤ n && n < 127 then String.singleton c
    else if n < 0x10000 then unitText n
    else unitText (0xD800 + (n - 0x10000) / 1024) ++ unitText (0xDC00 + (n - 0x10000) % 1024)

/-- A text in quotes. -/
def quoted (s : String) : String := "\"" ++ String.join (s.toList.map escape) ++ "\""

/-- A number. -/
def number (x : Float) : String :=
  if x.isNaN then "NaN"
  else if x.isInf then (if x < 0.0 then "-Infinity" else "Infinity")
  else Number.plain x

/-- An atom. -/
def atom : Atom → String
  | .null => "null"
  | .bool b => if b then "true" else "false"
  | .int n => toString n
  | .float x => number x
  | .text s => quoted s
  | a => quoted a.literal

/-- The name of a field. -/
def key : Atom → String
  | .text s => quoted s
  | a => quoted (atom a)

mutual

/-- The text of a value. -/
def write : Value → String
  | .atom a => atom a
  | .list xs => "[" ++ String.intercalate ", " (writeItems xs) ++ "]"
  | .map es => "\x7b" ++ String.intercalate ", " (writeEntries es) ++ "\x7d"

/-- The texts of list items. -/
def writeItems : List Value → List String
  | [] => []
  | x :: xs => write x :: writeItems xs

/-- The texts of entries. -/
def writeEntries : List (Atom × Value) → List String
  | [] => []
  | (k, v) :: es => (key k ++ ": " ++ write v) :: writeEntries es

end

/-! ### Reading -/

/-- The characters from the first that is not blank. -/
def skip (cs : List Char) : List Char :=
  cs.dropWhile fun c => c == ' ' || c == '\t' || c == '\n' || c == '\r'

/-- The value of a hexadecimal digit. -/
def hexValue? (c : Char) : Option Nat :=
  if '0' ≤ c ∧ c ≤ '9' then some (c.toNat - '0'.toNat)
  else if 'a' ≤ c ∧ c ≤ 'f' then some (c.toNat - 'a'.toNat + 10)
  else if 'A' ≤ c ∧ c ≤ 'F' then some (c.toNat - 'A'.toNat + 10)
  else none

/-- A code unit of four hexadecimal digits, and the rest. -/
def unit? : List Char → Option (Nat × List Char)
  | a :: b :: c :: d :: rest => do
    let digits ← [a, b, c, d].mapM hexValue?
    return (digits.foldl (fun n k => 16 * n + k) 0, rest)
  | _ => none

/-- The character of one or two code units after a backslash and a `u`. A unit without its partner
is half of a pair. -/
def unitChar? (cs : List Char) : Option (Char × List Char) := do
  let (n, rest) ← unit? cs
  if 0xD800 ≤ n && n < 0xDC00 then
    match rest with
    | '\\' :: 'u' :: more =>
      match unit? more with
      | some (m, rest') =>
        if 0xDC00 ≤ m && m < 0xE000 then
          return (Char.ofNat (0x10000 + (n - 0xD800) * 1024 + (m - 0xDC00)), rest')
        else return (Text.ofCode n, rest)
      | none => none
    | _ => return (Text.ofCode n, rest)
  else return (Text.ofCode n, rest)

/-- The character that a letter after a backslash stands for. -/
def letterChar (c : Char) : Char :=
  match c with
  | 'n' => '\n'
  | 'r' => '\r'
  | 't' => '\t'
  | 'b' => '\x08'
  | 'f' => '\x0c'
  | c => c

/-- The text up to the closing quote, and the rest; `done` is the text so far, backwards. -/
def readQuoted : (fuel : Nat) → (done : List Char) → List Char → Option (String × List Char)
  | 0, _, _ => none
  | fuel + 1, done, cs =>
    match cs with
    | '"' :: rest => some (String.ofList done.reverse, rest)
    | '\\' :: 'u' :: rest => do
      let (c, rest) ← unitChar? rest
      readQuoted fuel (c :: done) rest
    | '\\' :: c :: rest => readQuoted fuel (letterChar c :: done) rest
    | c :: rest => readQuoted fuel (c :: done) rest
    | [] => none

/-- The characters of numbers. -/
def isNumeric (c : Char) : Bool :=
  c.isDigit || c == '-' || c == '+' || c == '.' || c == 'e' || c == 'E'

/-- The words that are not numbers, texts or collections. -/
def words : List (String × Value) :=
  [("true", .bool true), ("false", .bool false), ("null", .null), ("NaN", .float (0.0 / 0.0)),
    ("Infinity", .float (1.0 / 0.0)), ("-Infinity", .float (-1.0 / 0.0))]

/-- A word or a number, and the rest. -/
def readAtom (cs : List Char) : Option (Value × List Char) :=
  let word := String.ofList (cs.takeWhile fun c => c.isAlpha || c == '-')
  match words.find? fun w => w.1 == word with
  | some (_, v) => some (v, cs.drop word.length)
  | none =>
    let digits := cs.takeWhile isNumeric
    let rest := cs.dropWhile isNumeric
    let s := String.ofList digits
    if digits.any fun c => c == '.' || c == 'e' || c == 'E' then
      (Number.read? s).map fun x => (.float x, rest)
    else (Number.readInt? s).map fun n => (.int n, rest)

mutual

/-- A value, and the rest. -/
def readValue : (fuel : Nat) → List Char → Option (Value × List Char)
  | 0, _ => none
  | fuel + 1, cs =>
    match skip cs with
    | '"' :: rest => (readQuoted (rest.length + 1) [] rest).map fun (s, rest) => (.text s, rest)
    | '[' :: rest =>
      match skip rest with
      | ']' :: rest => some (.list [], rest)
      | rest => readItems fuel [] rest
    | '\x7b' :: rest =>
      match skip rest with
      | '\x7d' :: rest => some (.map [], rest)
      | rest => readFields fuel [] rest
    | cs => readAtom cs

/-- The items of a list up to its end, after the ones that are done. -/
def readItems : (fuel : Nat) → (done : List Value) → List Char → Option (Value × List Char)
  | 0, _, _ => none
  | fuel + 1, done, cs => do
    let (v, rest) ← readValue fuel cs
    match skip rest with
    | ',' :: rest => readItems fuel (v :: done) rest
    | ']' :: rest => return (.list (v :: done).reverse, rest)
    | _ => none

/-- The fields of a mapping up to its end, after the ones that are done. -/
def readFields : (fuel : Nat) → (done : List (Atom × Value)) → List Char →
    Option (Value × List Char)
  | 0, _, _ => none
  | fuel + 1, done, cs => do
    match skip cs with
    | '"' :: rest =>
      let (name, rest) ← readQuoted (rest.length + 1) [] rest
      match skip rest with
      | ':' :: rest =>
        let (v, rest) ← readValue fuel rest
        let done := insertEntry (.text name) v done
        match skip rest with
        | ',' :: rest => readFields fuel done rest
        | '\x7d' :: rest => return (.map done, rest)
        | _ => none
      | _ => none
    | _ => none

end

/-- The value of a text. -/
def read? (s : String) : Option Value :=
  let cs := s.toList
  match readValue (cs.length + 1) cs with
  | some (v, rest) => if (skip rest).isEmpty then some v else none
  | none => none

end RobotProgram.Json
