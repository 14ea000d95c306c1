import RobotProgram.Host
import RobotProgram.Value.Convert

/-!
# File paths

A path is a root, which may be empty, and parts. Empty parts and single dots say nothing and are
dropped; double dots are kept. The suffix of a name starts at its last dot, unless that is the first
or the last character. A text with characters that no path takes is a path too, at which nothing
stands and nothing can be opened.
-/

namespace RobotProgram.Files

/-- A file path. -/
structure Path where
  root : String
  parts : List String
deriving DecidableEq, Repr

namespace Path

/-- The root of a path: two slashes stay two, and any other number is one. -/
def rootOf : List Char → String
  | '/' :: '/' :: '/' :: _ => "/"
  | '/' :: '/' :: _ => "//"
  | '/' :: _ => "/"
  | _ => ""

/-- The pieces of a text between slashes, where `piece` holds the characters of the current piece
backwards. -/
def piecesFrom (piece : List Char) : List Char → List String
  | [] => [String.ofList piece.reverse]
  | c :: cs =>
    if c == '/' then String.ofList piece.reverse :: piecesFrom [] cs else piecesFrom (c :: piece) cs

/-- The path of a text. -/
def ofText (s : String) : Path :=
  ⟨rootOf s.toList, (piecesFrom [] s.toList).filter fun p => p != "" && p != "."⟩

/-- The path of a value, which must be a text. -/
def ofValue : Value → Outcome Path
  | .text s => .ok (ofText s)
  | _ => .error .wrongType

/-- The text of a path. -/
def text (p : Path) : String :=
  if p.root.isEmpty && p.parts.isEmpty then "." else p.root ++ String.intercalate "/" p.parts

/-- Whether a path takes a character. Of the halves of pairs it takes those that stand for bytes
which are no text. -/
def takes (c : Char) : Bool :=
  match Text.half? c with
  | some n => 0xDC80 ≤ n && n ≤ 0xDCFF
  | none => true

/-- A path must be made of characters that it takes, and not hold the one that would end it. -/
def whole (p : Path) : Outcome Unit := do
  let text ← Host.encoded takes p.text
  if text.toList.contains '\x00' then throw .brokenPath

/-- Whether nothing can stand at a path. -/
def isBroken (p : Path) : Bool :=
  match p.whole with
  | .ok _ => false
  | .error _ => true

/-- The last part of a path. -/
def name (p : Path) : String := p.parts.getLastD ""

/-- The path without its last part. -/
def parent (p : Path) : Path := { p with parts := p.parts.dropLast }

/-- The path of something in a directory. -/
def child (p : Path) (name : String) : Path := { p with parts := p.parts ++ [name] }

/-- A name without its suffix, and the suffix. -/
def splitName (name : String) : String × String :=
  let cs := name.toList.reverse
  let ending := cs.takeWhile (· != '.')
  match cs.dropWhile (· != '.') with
  | '.' :: rest =>
    if ending.isEmpty || rest.isEmpty then (name, "")
    else (String.ofList rest.reverse, String.ofList ('.' :: ending.reverse))
  | _ => (name, "")

/-- The suffix of a path. -/
def suffix (p : Path) : String := (splitName p.name).2

/-- The name of a path without its suffix. -/
def stem (p : Path) : String := (splitName p.name).1

/-- Whether a suffix holds no slash and starts with a dot before something else. -/
def isSuffix (s : String) : Bool :=
  !s.toList.contains '/' && (s.isEmpty || (s.startsWith "." && s != "."))

/-- The path with another suffix. -/
def withSuffix (p : Path) (v : Value) : Outcome Path :=
  match v with
  | .text s =>
    if !isSuffix s then .error (.badSuffix s)
    else if p.name.isEmpty then .error (.emptyFileName p.text)
    else .ok (p.parent.child (p.stem ++ s))
  | _ => .error .wrongType

end Path

end RobotProgram.Files
