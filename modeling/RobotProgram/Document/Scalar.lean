import RobotProgram.Document.Cursor

/-!
# Scalars of a document

A scalar is plain, in single or double quotes, or a block of lines. A line break inside a plain or
quoted scalar is a space, and of several the first is dropped. A block keeps its line breaks, or
folds them in the same way between lines that do not start with a blank.
-/

namespace RobotProgram.Document

/-- What a line break and the ones after it become. -/
def foldBreaks (first : Char) (more : List Char) : List Char :=
  (if first != '\n' then [first] else if more.isEmpty then [' '] else []) ++ more

/-! ### Plain scalars -/

/-- The marks of collections inside brackets. -/
def isFlowMark (c : Char) : Bool := [',', '?', '[', ']', '\x7b', '\x7d'].contains c

/-- The characters that start something else than a plain scalar. -/
def isIndicator (c : Char) : Bool := "-?:,[]\x7b\x7d#&*!|>'\"%@`".toList.contains c

/-- Whether a plain scalar starts with these characters. -/
def startsPlain (flow : Bool) : List Char → Bool
  | [] => false
  | c :: cs =>
    !isSpace c &&
      (!isIndicator c || (!endsWord cs && (c == '-' || (!flow && (c == '?' || c == ':')))))

/-- Whether a key ends before a colon that these characters follow. -/
def endsKey (flow : Bool) (cs : List Char) : Bool :=
  endsWord cs || (flow && cs.head?.any fun c => isFlowMark c && c != '?')

/-- The longest word of a plain scalar at the start of a text. -/
def plainWord (flow : Bool) : List Char → List Char
  | [] => []
  | c :: cs =>
    if isSpace c || (c == ':' && endsKey flow cs) || (flow && isFlowMark c) then []
    else c :: plainWord flow cs

/-- Goes over the blanks after a word, and returns what they stand for in the scalar; nothing if the
scalar ends here. -/
def plainGap : Reader (List Char) := do
  let spaces ← takeRun (· == ' ')
  if (← peek).any isBreak then
    let first ← takeBreak
    let more ← takeBlankLines false
    return if (← get).ended then [] else foldBreaks first more
  else return spaces

/-- A plain scalar after `text` and the `gap` before its next word. Outside brackets its lines stand
at `floor` or to the right of it. -/
def plainFrom (flow : Bool) (floor : Nat) : (fuel : Nat) → (text gap : List Char) → Reader String
  | 0, _, _ => malformed
  | fuel + 1, text, gap => do
    let word := plainWord flow (← get).rest
    if word.isEmpty || word.head? == some '#' then return String.ofList text
    forward word.length
    let text := text ++ gap ++ word
    let gap ← plainGap
    if gap.isEmpty || (!flow && (← get).column < floor) then return String.ofList text
    plainFrom flow floor fuel text gap

/-- A plain scalar. -/
def plain (flow : Bool) (floor : Nat) : Reader String := do
  let cs := (← get).rest
  need (startsPlain flow cs)
  plainFrom flow floor (cs.length + 1) [] []

/-! ### Quoted scalars -/

/-- The characters that letters after a backslash stand for. -/
def escapes : List (Char × Char) :=
  [('0', '\x00'), ('a', '\x07'), ('b', '\x08'), ('t', '\t'), ('\t', '\t'), ('n', '\n'),
    ('v', '\x0b'), ('f', '\x0c'), ('r', '\r'), ('e', '\x1b'), (' ', ' '), ('"', '"'), ('\\', '\\'),
    ('/', '/'), ('N', '\x85'), ('_', '\xa0'), ('L', '\u2028'), ('P', '\u2029')]

/-- The number of hexadecimal digits after a backslash and a letter. -/
def codeLength? (c : Char) : Option Nat :=
  match c with
  | 'x' => some 2
  | 'u' => some 4
  | 'U' => some 8
  | _ => none

/-- The value of a hexadecimal digit. -/
def hexDigit? (c : Char) : Option Nat :=
  if '0' ≤ c ∧ c ≤ '9' then some (c.toNat - '0'.toNat)
  else if 'a' ≤ c ∧ c ≤ 'f' then some (c.toNat - 'a'.toNat + 10)
  else if 'A' ≤ c ∧ c ≤ 'F' then some (c.toNat - 'A'.toNat + 10)
  else none

/-- The character of a code in hexadecimal digits, which may be half of a pair. -/
def coded (length : Nat) : Reader Char := do
  let ds := (← get).rest.take length
  need (ds.length == length)
  let code := (← orMalformed (ds.mapM hexDigit?)).foldl (fun n d => 16 * n + d) 0
  if 0x110000 ≤ code then throw (.code code)
  forward length
  return Text.ofCode code

/-- Goes over blank lines inside quotes, where a mark between documents may not stand. -/
def quotedLines : Reader (List Char) := do
  let breaks ← takeBlankLines true
  need (!(← get).ended)
  return breaks

/-- What a backslash and what follows it stand for. -/
def escaped : Reader (List Char) := do
  expect '\\'
  match ← peek with
  | none => malformed
  | some c =>
    if isBreak c then
      let _ ← takeBreak
      quotedLines
    else
      forward 1
      match escapes.find? fun e => e.1 == c with
      | some e => return [e.2]
      | none => return [← coded (← orMalformed (codeLength? c))]

/-- What blanks inside quotes stand for. -/
def quotedGap : Reader (List Char) := do
  let spaces ← takeRun fun c => c == ' ' || c == '\t'
  match ← peek with
  | none => malformed
  | some c =>
    if isBreak c then
      let first ← takeBreak
      return foldBreaks first (← quotedLines)
    else return spaces

/-- A scalar up to the closing quote, after `text`. -/
def quotedFrom (quote : Char) : (fuel : Nat) → (text : List Char) → Reader String
  | 0, _ => malformed
  | fuel + 1, text => do
    match (← get).rest with
    | [] => malformed
    | c :: cs =>
      if c == quote then
        forward 1
        if quote == '\'' && cs.head? == some quote then
          forward 1
          quotedFrom quote fuel (text ++ [quote])
        else return String.ofList text
      else if quote == '"' && c == '\\' then quotedFrom quote fuel (text ++ (← escaped))
      else if isSpace c then quotedFrom quote fuel (text ++ (← quotedGap))
      else
        forward 1
        quotedFrom quote fuel (text ++ [c])

/-- A scalar in quotes. -/
def quoted (quote : Char) : Reader String := do
  expect quote
  quotedFrom quote ((← get).rest.length + 1) []

/-! ### Blocks of lines -/

/-- What becomes of the line breaks at the end of a block. -/
inductive Chomping where
  /-- One is kept. -/
  | clip
  /-- None is kept. -/
  | strip
  /-- All are kept. -/
  | keep
deriving DecidableEq

/-- The sign of a block's chomping. -/
def chomping : Reader Chomping := do
  match ← peek with
  | some '-' => forward 1; return .strip
  | some '+' => forward 1; return .keep
  | _ => return .clip

/-- The digit of a block's indentation. -/
def indentation : Reader (Option Nat) := do
  match ← peek with
  | some c =>
    if '1' ≤ c ∧ c ≤ '9' then
      forward 1
      return some (c.toNat - '0'.toNat)
    else return none
  | none => return none

/-- The head of a block: its chomping and its indentation, in either order, and the end of the
line. -/
def blockHead : Reader (Chomping × Option Nat) := do
  let early ← chomping
  let indent ← indentation
  let kept ← if early == .clip && indent.isSome then chomping else pure early
  need (endsWord (← get).rest)
  let _ ← takeRun (· == ' ')
  if (← peek) == some '#' then
    let _ ← takeRun fun c => !isBreak c
  match ← peek with
  | none => pure ()
  | some _ => let _ ← takeBreak
  return (kept, indent)

/-- The widest indentation of the lines of a block up to its first character. -/
def widestIndent (cur : Cursor) : List Char → Nat
  | [] => cur.column
  | c :: cs =>
    if isBreak c then max cur.column (widestIndent cur.overBreak cs)
    else if c == ' ' then widestIndent cur.overBlank cs
    else cur.column

/-- Goes over at most `indent` spaces of a line, again and again over empty lines, whose breaks are
returned. -/
def blockBreaksFrom (indent : Nat) (cur : Cursor) : List Char → List Char × Cursor
  | [] => ([], { cur with rest := [] })
  | c :: cs =>
    if isBreak c then
      let (breaks, after) := blockBreaksFrom indent cur.overBreak cs
      (c :: breaks, after)
    else if c == ' ' && cur.column < indent then blockBreaksFrom indent cur.overBlank cs
    else ([], { cur with rest := c :: cs })

/-- Goes over the spaces before the next line of a block, and over empty lines. -/
def blockBreaks (indent : Nat) : Reader (List Char) :=
  modifyGet fun cur => blockBreaksFrom indent cur cur.rest

/-- Whether a line starts with a blank. -/
def startsBlank (cs : List Char) : Bool := cs.head?.any fun c => c == ' ' || c == '\t'

/-- The lines of a block, after `text` and the `breaks` before the next line. -/
def blockFrom (folded : Bool) (indent : Nat) (kept : Chomping) :
    (fuel : Nat) → (text breaks : List Char) → Reader String
  | 0, _, _ => malformed
  | fuel + 1, text, breaks => do
    let blank := startsBlank (← get).rest
    let line ← takeRun fun c => !isBreak c
    let text := text ++ breaks ++ line
    let ending ← if (← get).rest.isEmpty then pure [] else do pure [← takeBreak]
    let breaks ← blockBreaks indent
    let cur ← get
    if cur.column == indent && !cur.rest.isEmpty then
      if folded && ending == ['\n'] && !blank && !startsBlank cur.rest then
        blockFrom folded indent kept fuel (text ++ if breaks.isEmpty then [' '] else []) breaks
      else blockFrom folded indent kept fuel (text ++ ending) breaks
    else
      return String.ofList <| match kept with
        | .strip => text
        | .clip => text ++ ending
        | .keep => text ++ ending ++ breaks

/-- A block of lines, which stand at `floor` or to the right of it. -/
def blockScalar (folded : Bool) (floor : Nat) : Reader String := do
  forward 1
  let (kept, increment) ← blockHead
  let least := max floor 1
  let cur ← get
  let indent := match increment with
    | none => max least (widestIndent cur cur.rest)
    | some n => least + n - 1
  let breaks ← blockBreaks indent
  modify fun cur => { cur with fresh := true }
  let cur ← get
  if cur.column == indent && !cur.rest.isEmpty then
    let text ← blockFrom folded indent kept (cur.rest.length + 1) [] breaks
    modify fun cur => { cur with fresh := true }
    return text
  else return String.ofList (if kept == .keep then breaks else [])

end RobotProgram.Document
