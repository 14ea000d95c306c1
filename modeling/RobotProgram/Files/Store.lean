import RobotProgram.Files.Path

/-!
# File stores

Files and directories under a working directory. Paths are walked part by part: every part but the
last must be a directory, and double dots lead back to where a directory stands.
-/

namespace RobotProgram.Files

/-- What stands at a place: a directory, a text, a document whose value is known, or a file whose
bytes are no text. -/
inductive Node where
  | directory
  | text (s : String)
  | document (v : Value)
  | damaged

/-- A place: the parts on the way to it, from the root if the first is a slash. -/
abbrev Place := List String

/-- Files and directories. -/
structure Store where
  nodes : List (Place × Node)

namespace Store

/-- The working directory, the directories above it, and the root. -/
def isAncestor (place : Place) : Bool := place == ["/"] || place.all (· == "..")

/-- What stands at a place. -/
def find? (s : Store) (place : Place) : Option Node :=
  if isAncestor place then some .directory
  else (s.nodes.find? fun n => n.1 == place).map (·.2)

/-- Puts something at a place. -/
def insert (s : Store) (place : Place) (node : Node) : Store :=
  if s.nodes.any fun n => n.1 == place then
    ⟨s.nodes.map fun n => if n.1 == place then (place, node) else n⟩
  else ⟨s.nodes ++ [(place, node)]⟩

/-- The place that a part leads to from a place. -/
def next (place : Place) (part : String) : Place :=
  if part != ".." then place ++ [part]
  else if place == ["/"] then place
  else if place.all (· == "..") then place ++ [".."]
  else place.dropLast

/-- Goes one part on from a place, which must be a directory. -/
def step (s : Store) (place : Place) (part : String) : Except FileFault Place :=
  match s.find? place with
  | none => .error .notFound
  | some .directory => .ok (next place part)
  | some _ => .error .notDirectory

/-- The place of a path, at which something may stand or not. -/
def locate (s : Store) (p : Path) : Except FileFault Place :=
  p.parts.foldlM s.step (if p.root.isEmpty then [] else ["/"])

/-- What stands at a path. -/
def look (s : Store) (p : Path) : Option Node :=
  match s.locate p with
  | .ok place => s.find? place
  | .error _ => none

/-- Whether something stands at a path. -/
def holds (s : Store) (p : Path) : Bool := !p.isBroken && (s.look p).isSome

/-- Whether a directory stands at a path. -/
def isDirectory (s : Store) (p : Path) : Bool :=
  match s.look p with
  | some .directory => true
  | _ => false

/-- The file at a path. -/
def read (s : Store) (p : Path) : Except FileFault Node := do
  let place ← s.locate p
  match s.find? place with
  | none => .error .notFound
  | some .directory => .error .isDirectory
  | some node => .ok node

/-- Writes a text to a path. -/
def write (s : Store) (p : Path) (text : String) : Except FileFault Store := do
  let place ← s.locate p
  match s.find? place with
  | some .directory => .error .isDirectory
  | _ => .ok (s.insert place (.text text))

/-- Makes a directory where nothing stands. -/
def makeDirectory (s : Store) (p : Path) : Except FileFault Store := do
  let place ← s.locate p
  match s.find? place with
  | some _ => .error .exists
  | none => .ok (s.insert place .directory)

/-- The directory that was made, or the one that was there. -/
def orExisting (s : Store) (p : Path) : Except FileFault Store → Except (FileFault × Path) Store
  | .ok s => .ok s
  | .error f => if s.isDirectory p then .ok s else .error (f, p)

/-- Makes a directory with the ones above it; `backwards` are its parts from the last on. -/
def makeDirectoriesFrom (s : Store) (root : String) :
    (backwards : List String) → Except (FileFault × Path) Store
  | [] => s.orExisting ⟨root, []⟩ (s.makeDirectory ⟨root, []⟩)
  | part :: above =>
    let p : Path := ⟨root, (part :: above).reverse⟩
    match s.makeDirectory p with
    | .error .notFound => do
      let made ← s.makeDirectoriesFrom root above
      made.orExisting p (made.makeDirectory p)
    | outcome => s.orExisting p outcome

/-- Makes a directory with the ones above it. -/
def makeDirectories (s : Store) (p : Path) : Except (FileFault × Path) Store :=
  s.makeDirectoriesFrom p.root p.parts.reverse

/-- The names in a directory, in the order of their characters. -/
def namesIn (s : Store) (p : Path) : List String :=
  match s.locate p with
  | .error _ => []
  | .ok place =>
    let inside := s.nodes.filterMap fun (q, _) =>
      if !isAncestor q && q.dropLast == place then q.getLast? else none
    inside.mergeSort fun a b => decide (a ≤ b)

end Store

/-- Puts a file or a directory at a path, with the directories above it. -/
def Store.place (s : Store) (p : Path) (node : Node) : Store :=
  match s.makeDirectories p.parent with
  | .ok made => made.insert p.parts node
  | .error _ => s.insert p.parts node

/-- A computation on files, which keeps what it did when it fails. -/
abbrev Access := ExceptT Fault (StateM Store)

namespace Access

/-- Writes a text to a path. -/
def write (p : Path) (text : String) : Access Unit := do
  p.whole
  match (← get).write p text with
  | .ok s => set s
  | .error f => throw (.file f p.text)

/-- Makes a directory with the ones above it. -/
def makeDirectories (p : Path) : Access Unit := do
  p.whole
  match (← get).makeDirectories p with
  | .ok s => set s
  | .error (f, q) => throw (.file f q.text)

end Access

end RobotProgram.Files
