import RobotProgram.Document.Implicit

/-!
# Writing documents

Plain data in block layout: the entries of a mapping one to a line, nested mappings two columns to
the right, and the items of a list at the column of the mapping that holds it. A text is plain where
it reads back as itself, else in single quotes, or in double quotes if it holds a character that is
not printable ASCII. A text that runs past the eightieth column goes on in the next line.
-/

namespace RobotProgram.Document

/-- The column past which a text goes on in the next line. -/
def lineWidth : Nat := 80

/-- Spaces up to a column. -/
def pad (column : Nat) : List Char := List.replicate column ' '

/-! ### The form of a text -/

/-- The forms of a text. -/
inductive Form where
  | plain
  | single
  | double
deriving DecidableEq

/-- The characters that end a word, for the text that is written. -/
def isBlankMark (c : Char) : Bool :=
  [' ', '\t', '\n', '\r', '\x00', '\x85', '\u2028', '\u2029'].contains c

/-- Whether a blank or the end follows. -/
def blankFollows (cs : List Char) : Bool := cs.head?.all isBlankMark

/-- Whether a text holds a colon before a blank or a hash after a blank; `blank` is whether a blank
came before. -/
def holdsMark (blank : Bool) : List Char → Bool
  | [] => false
  | c :: cs => (c == ':' && blankFollows cs) || (c == '#' && blank) || holdsMark (isBlankMark c) cs

/-- Whether a text starts like something else than a plain text. -/
def startsMarked (cs : List Char) : Bool :=
  "---".toList.isPrefixOf cs || "...".toList.isPrefixOf cs ||
    match cs with
    | [] => false
    | c :: rest =>
      "#,[]\x7b\x7d&*!|>'\"%@`".toList.contains c ||
        ((c == '?' || c == ':' || c == '-') && blankFollows rest)

/-- Whether a space stands next to a line break. -/
def mixesBlanks : List Char → Bool
  | c :: d :: cs => (c == ' ' && d == '\n') || (c == '\n' && d == ' ') || mixesBlanks (d :: cs)
  | _ => false

/-- The characters that are written as they are. -/
def isPrintable (c : Char) : Bool := ' ' ≤ c && c ≤ '~'

/-- The form of a text; a `key` holds no line break. -/
def formOf (key : Bool) (s : String) : Form :=
  let cs := s.toList
  let breaks := cs.contains '\n'
  let edges := [cs.head?, cs.getLast?].any fun c => c == some ' ' || c == some '\n'
  if !(cs.all fun c => isPrintable c || c == '\n') || mixesBlanks cs then .double
  else if !breaks && !edges && !startsMarked cs && !holdsMark false cs &&
    isText s then .plain
  else if key && breaks then .double
  else .single

/-! ### Folding -/

/-- The characters of a text from a column on. A single space between words past the width becomes
a line break before `indent`, and line breaks are written one more than there are; `spaces` and
`breaks` wait to be written, and `started` is whether a character was written. In quotes, a quote is
doubled. -/
def folded (inQuotes : Bool) (indent : Nat) :
    (column spaces breaks : Nat) → (started : Bool) → List Char → List Char
  | _, spaces, breaks, _, [] =>
    if breaks == 0 then pad spaces else List.replicate (breaks + 1) '\n' ++ pad indent
  | column, spaces, breaks, started, c :: cs =>
    if c == ' ' then folded inQuotes indent column (spaces + 1) breaks started cs
    else if c == '\n' then folded inQuotes indent column spaces (breaks + 1) started cs
    else
      let marks := if inQuotes && c == '\'' then [c, c] else [c]
      let (gap, column) :=
        if breaks != 0 then (List.replicate (breaks + 1) '\n' ++ pad indent, indent)
        else if spaces == 1 && started && lineWidth < column then ('\n' :: pad indent, indent)
        else (pad spaces, column + spaces)
      gap ++ marks ++ folded inQuotes indent (column + marks.length) 0 0 true cs

/-- The letters after a backslash. -/
def escapeLetters : List (Char × Char) :=
  [('\x00', '0'), ('\x07', 'a'), ('\x08', 'b'), ('\t', 't'), ('\n', 'n'), ('\x0b', 'v'),
    ('\x0c', 'f'), ('\r', 'r'), ('\x1b', 'e'), ('"', '"'), ('\\', '\\'), ('\x85', 'N'),
    ('\xa0', '_'), ('\u2028', 'L'), ('\u2029', 'P')]

/-- A number in capital hexadecimal digits. -/
def upperHex (width n : Nat) : List Char := (Text.hex width n).toList.map Char.toUpper

/-- What is written for a character in double quotes, if not the character itself. -/
def escape? (c : Char) : Option (List Char) :=
  match escapeLetters.find? fun e => e.1 == c with
  | some e => some ['\\', e.2]
  | none =>
    let n := (Text.half? c).getD c.toNat
    if isPrintable c then none
    else if n ≤ 0xff then some ('\\' :: 'x' :: upperHex 2 n)
    else if n ≤ 0xffff then some ('\\' :: 'u' :: upperHex 4 n)
    else some ('\\' :: 'U' :: upperHex 8 n)

/-- The characters of a text in double quotes from a column on. `run` holds characters that wait to
be written, backwards, and `inner` is whether the next character is not the first. Past the width a
backslash ends the line, before a space, after an escape or between two; a space at the start of the
next line gets a backslash too. The last character stays where it is. -/
def escapedFrom (split : Bool) (indent : Nat) :
    (column : Nat) → (run : List Char) → (inner : Bool) → List Char → List Char
  | _, run, _, [] => run.reverse
  | column, run, inner, c :: cs =>
    let breakable := split && inner && !cs.isEmpty
    match escape? c with
    | some marks =>
      let column := column + run.length + marks.length
      if breakable && lineWidth + 1 < column then
        let slash := if cs.head? == some ' ' then ['\\'] else []
        run.reverse ++ marks ++ ['\\', '\n'] ++ pad indent ++ slash ++
          escapedFrom split indent (indent + slash.length) [] true cs
      else run.reverse ++ marks ++ escapedFrom split indent column [] true cs
    | none =>
      if breakable && (c == ' ' || run.isEmpty) && lineWidth < column + run.length then
        let slash := if c == ' ' then ['\\'] else []
        run.reverse ++ ['\\', '\n'] ++ pad indent ++ slash ++
          escapedFrom split indent (indent + slash.length) [c] true cs
      else escapedFrom split indent column (c :: run) true cs

/-- A text from a column on; it goes on at `indent`, unless it is a key. -/
def textScalar (key : Bool) (indent column : Nat) (s : String) : List Char :=
  let cs := s.toList
  match formOf key s with
  | .double => '"' :: (escapedFrom (!key) indent (column + 1) [] false cs ++ ['"'])
  | .single =>
    if key then '\'' :: (cs.flatMap (fun c => if c == '\'' then [c, c] else [c]) ++ ['\''])
    else '\'' :: (folded true indent (column + 1) 0 0 false cs ++ ['\''])
  | .plain => if key then cs else folded false indent column 0 0 false cs

/-- An atom from a column on. -/
def scalar (key : Bool) (indent column : Nat) : Atom → List Char
  | .null => "null".toList
  | .bool b => (if b then "true" else "false").toList
  | .int n => (toString n).toList
  | .float x => (Number.document x).toList
  | .text s => textScalar key indent column s
  | a => (Value.atom a).toText.toList

/-! ### Collections -/

mutual

/-- A value that starts at a column, with its last line break. -/
def block (column : Nat) : Value → List Char
  | .atom a => scalar false column column a ++ ['\n']
  | .list [] => "[]\n".toList
  | .list (x :: xs) => '-' :: ' ' :: (block (column + 2) x ++ blockItems column xs)
  | .map [] => "\x7b\x7d\n".toList
  | .map ((k, v) :: es) =>
    let name := scalar true 0 column k ++ [':']
    name ++ blockEntry column (column + name.length + 1) v ++ blockEntries column es

/-- The items of a list at a column, each in a line of its own. -/
def blockItems (column : Nat) : List Value → List Char
  | [] => []
  | x :: xs => pad column ++ '-' :: ' ' :: (block (column + 2) x ++ blockItems column xs)

/-- The value of an entry of the mapping at a column; an atom starts at `start`. -/
def blockEntry (column start : Nat) : Value → List Char
  | .atom a => ' ' :: (scalar false (column + 2) start a ++ ['\n'])
  | .list [] => " []\n".toList
  | .map [] => " \x7b\x7d\n".toList
  | .list (x :: xs) =>
    '\n' :: (pad column ++ '-' :: ' ' :: (block (column + 2) x ++ blockItems column xs))
  | .map ((k, v) :: es) =>
    let name := scalar true 0 (column + 2) k ++ [':']
    '\n' :: (pad (column + 2) ++ name ++
      blockEntry (column + 2) (column + 2 + name.length + 1) v ++ blockEntries (column + 2) es)

/-- The entries of the mapping at a column, each in a line of its own. -/
def blockEntries (column : Nat) : List (Atom × Value) → List Char
  | [] => []
  | (k, v) :: es =>
    let name := scalar true 0 column k ++ [':']
    pad column ++ name ++ blockEntry column (column + name.length + 1) v ++ blockEntries column es

end

/-- The document of a value. -/
def write (v : Value) : String := String.ofList (block 0 v)

end RobotProgram.Document
