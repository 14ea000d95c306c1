import RobotProgram.Fault

/-!
# Cursors

A cursor is a place in a document: the characters that follow, the column, the line, and whether
only blanks stand between the last line break or list mark and the place, so that a key or a list
mark may stand here. It only goes forward.
-/

namespace RobotProgram.Document

/-- How the text of a scalar is read. -/
inductive Reading where
  /-- By what it looks like. -/
  | implicit
  /-- As it stands. -/
  | verbatim
  | whole
  | number
  | truth

/-- A document before its scalars are read. -/
inductive Tree where
  | scalar (reading : Reading) (text : String)
  | list (items : List Tree)
  | map (entries : List (Tree × Tree))
  /-- A part with a tag that it cannot have. -/
  | mistagged

/-- What stands where a value is missing. -/
def Tree.empty : Tree := .scalar .implicit ""

/-- A place in a document, and the parts that were named before it. -/
structure Cursor where
  rest : List Char
  column : Nat
  line : Nat
  fresh : Bool
  anchors : List (String × Tree)

/-- What stops a reader. -/
inductive Stop where
  /-- The text is no document. -/
  | malformed
  /-- A code that no character has. -/
  | code (n : Nat)
deriving DecidableEq, Repr

/-- The fault of a text whose reader was stopped. A code past the numbers of the machine is a number
that is too large. -/
def Stop.fault : Stop → Fault
  | malformed => .unreadableDocument
  | code n => if n < 0x80000000 then .noCharacter else .overflow

/-- A reader goes forward or is stopped. -/
abbrev Reader := StateT Cursor (Except Stop)

/-- The text is no document. -/
def malformed {α : Type} : Reader α := throw .malformed

/-- A value that a document has in this place. -/
def orMalformed {α : Type} : Option α → Reader α
  | some a => return a
  | none => malformed

/-- The characters that end a line. -/
def isBreak (c : Char) : Bool := c == '\n' || c == '\u2028' || c == '\u2029'

/-- The characters between words. -/
def isSpace (c : Char) : Bool := c == ' ' || c == '\t' || isBreak c

/-- Whether a word ends before these characters. -/
def endsWord (cs : List Char) : Bool := cs.head?.all isSpace

namespace Cursor

/-- Whether a mark between documents stands here. -/
def atMark (cur : Cursor) (mark : String) : Bool :=
  cur.column == 0 && mark.toList.isPrefixOf cur.rest && endsWord (cur.rest.drop mark.length)

/-- Whether the document ends here. -/
def ended (cur : Cursor) : Bool :=
  cur.rest.isEmpty || cur.atMark "---" || cur.atMark "..."

/-- Whether a sign stands here as a word of its own. -/
def atSign (sign : Char) (cur : Cursor) : Bool :=
  match cur.rest with
  | c :: cs => c == sign && endsWord cs
  | [] => false

/-- Whether the mark of a list item stands here. -/
def atEntry (cur : Cursor) : Bool := cur.atSign '-'

/-- Goes on by `n` characters of a line. -/
def forward (n : Nat) (cur : Cursor) : Cursor :=
  { cur with rest := cur.rest.drop n, column := cur.column + n, fresh := false }

/-- Goes over one blank. -/
def overBlank (cur : Cursor) : Cursor := { cur with column := cur.column + 1 }

/-- Goes over one line break. -/
def overBreak (cur : Cursor) : Cursor :=
  { cur with column := 0, line := cur.line + 1, fresh := true }

/-- Goes over spaces, over tabs where `tabs` allows them, and over line breaks, which are
returned. -/
def blankLinesFrom (tabs : Bool) (cur : Cursor) : List Char → List Char × Cursor
  | [] => ([], { cur with rest := [] })
  | c :: cs =>
    if isBreak c then
      let (breaks, after) := blankLinesFrom tabs cur.overBreak cs
      (c :: breaks, after)
    else if c == ' ' || (tabs && c == '\t') then blankLinesFrom tabs cur.overBlank cs
    else ([], { cur with rest := c :: cs })

/-- Goes over spaces, line breaks and comments, where `comment` is whether a comment has begun. -/
def skipFrom (comment : Bool) (cur : Cursor) : List Char → Cursor
  | [] => { cur with rest := [] }
  | c :: cs =>
    if isBreak c then skipFrom false cur.overBreak cs
    else if comment || c == ' ' then skipFrom comment cur.overBlank cs
    else if c == '#' then skipFrom true cur.overBlank cs
    else { cur with rest := c :: cs }

/-- Goes to the next character that is not blank and not in a comment. -/
def skip (cur : Cursor) : Cursor := skipFrom false cur cur.rest

end Cursor

/-- The next character. -/
def peek : Reader (Option Char) := do return (← get).rest.head?

/-- Goes on by `n` characters of a line. -/
def forward (n : Nat) : Reader Unit := modify (Cursor.forward n)

/-- Goes on only where a condition holds. -/
def need (condition : Bool) : Reader Unit := if condition then pure () else malformed

/-- Goes over a character, which must be `c`. -/
def expect (c : Char) : Reader Unit := do
  need ((← peek) == some c)
  forward 1

/-- Goes on while the characters of a line satisfy `p`. -/
def takeRun (p : Char → Bool) : Reader (List Char) := do
  let taken := (← get).rest.takeWhile p
  forward taken.length
  return taken

/-- Goes over a line break. -/
def takeBreak : Reader Char := do
  match (← get).rest with
  | c :: cs =>
    need (isBreak c)
    modify fun cur => { cur.overBreak with rest := cs }
    return c
  | [] => malformed

/-- Goes over blanks and line breaks, which are returned. -/
def takeBlankLines (tabs : Bool) : Reader (List Char) :=
  modifyGet fun cur => cur.blankLinesFrom tabs cur.rest

/-- Goes to the next character that is not blank and not in a comment. -/
def skip : Reader Unit := modify Cursor.skip

end RobotProgram.Document
