import RobotProgram.Document.Implicit
import RobotProgram.Document.Scalar

/-!
# Reading documents

A document is one node. A node in block layout is a mapping or a list whose entries stand at one
column, or a scalar; brackets hold nodes in flow layout. A key stands on one line before its colon,
or after a question mark. A part may be named by an anchor and repeated by an alias. Of two entries
with one key the last value counts, and a merge key adds the entries of other mappings in front.

A text that is no document is one fault, whatever is wrong with it. Other faults are those of parts
that look right: a code that no character has, a number with no digits or too many, a day that is
none of the calendar, a mark of a truth value that is none. They are met in the order of the text.
Tags and directives beyond plain data are left out, and so is an alias inside the part that it
names: a text with them counts as no document. `RobotProgram.Host` therefore takes the reader of
documents as a parameter, of which this one is an instance.
-/

namespace RobotProgram.Document

/-! ### Anchors and tags -/

/-- The name of an anchor or an alias, after its mark. -/
def anchorName : Reader String := do
  forward 1
  let name ← takeRun fun c => c.isAlphanum || c == '-' || c == '_'
  let rest := (← get).rest
  need (!name.isEmpty)
  need (endsWord rest || rest.head?.any fun c => "?:,]\x7d%@`".toList.contains c)
  return String.ofList name

/-- Names a tree; a name is given once. -/
def anchor (name : String) (tree : Tree) : Reader Tree := do
  let cur ← get
  need (!cur.anchors.any fun a => a.1 == name)
  set { cur with anchors := (name, tree) :: cur.anchors }
  return tree

/-- The tree of an alias. -/
def aliased : Reader Tree := do
  let name ← anchorName
  match (← get).anchors.find? fun a => a.1 == name with
  | some a => return a.2
  | none => malformed

/-- A tag. -/
def tag (flow : Bool) : Reader String := do
  String.ofList <$> takeRun fun c => !isSpace c && !(flow && isFlowMark c)

/-- What a tag makes of a tree; only the tags of plain data are known. -/
def tagged (tag : String) (tree : Tree) : Tree :=
  match tag, tree with
  | "!", .scalar _ s => .scalar .implicit s
  | "!!str", .scalar _ s => .scalar .verbatim s
  | "!!int", .scalar _ s => .scalar .whole s
  | "!!float", .scalar _ s => .scalar .number s
  | "!!bool", .scalar _ s => .scalar .truth s
  | "!!null", .scalar _ _ => .empty
  | "!", .list ts | "!!seq", .list ts => .list ts
  | "!", .map es | "!!map", .map es => .map es
  | _, _ => .mistagged

/-! ### Nodes -/

/-- Whether a node in brackets is missing here. -/
def atFlowEnd : Reader Bool := do
  return (← peek).any fun c => c == ',' || c == ']' || c == '\x7d' || c == ':'

mutual

/-- A node inside brackets. -/
def flowNode : (fuel : Nat) → Reader Tree
  | 0 => malformed
  | fuel + 1 => do
    skip
    need (!(← get).ended)
    match ← peek with
    | some '[' => forward 1; flowItems fuel []
    | some '\x7b' => forward 1; flowEntries fuel []
    | some '"' => return .scalar .verbatim (← quoted '"')
    | some '\'' => return .scalar .verbatim (← quoted '\'')
    | some '*' => aliased
    | some '&' => anchor (← anchorName) (← flowPart fuel)
    | some '!' => return tagged (← tag true) (← flowPart fuel)
    | _ => return .scalar .implicit (← plain true 0)

/-- A node inside brackets, which may be missing. -/
def flowPart : (fuel : Nat) → Reader Tree
  | 0 => malformed
  | fuel + 1 => do
    skip
    if ← atFlowEnd then return .empty else flowNode fuel

/-- A node inside brackets, and the value after its colon if it is a key. -/
def flowPair : (fuel : Nat) → Reader (Tree × Option Tree)
  | 0 => malformed
  | fuel + 1 => do
    skip
    let marked := (← peek) == some '?'
    if marked then forward 1
    let line := (← get).line
    let key ← if marked then flowPart fuel else flowNode fuel
    skip
    let cur ← get
    if cur.rest.head? == some ':' && (marked || cur.line == line) then
      forward 1
      return (key, some (← flowPart fuel))
    else return (key, if marked then some .empty else none)

/-- The items of a list in brackets after the ones that are done. -/
def flowItems : (fuel : Nat) → (done : List Tree) → Reader Tree
  | 0, _ => malformed
  | fuel + 1, done => do
    skip
    if (← peek) == some ']' then
      forward 1
      return .list done.reverse
    let item ← match ← flowPair fuel with
      | (key, some value) => pure (.map [(key, value)])
      | (item, none) => pure item
    skip
    if (← peek) == some ',' then forward 1 else need ((← peek) == some ']')
    flowItems fuel (item :: done)

/-- The entries of a mapping in brackets after the ones that are done. -/
def flowEntries : (fuel : Nat) → (done : List (Tree × Tree)) → Reader Tree
  | 0, _ => malformed
  | fuel + 1, done => do
    skip
    if (← peek) == some '\x7d' then
      forward 1
      return .map done.reverse
    let (key, value) ← flowPair fuel
    skip
    if (← peek) == some ',' then forward 1 else need ((← peek) == some '\x7d')
    flowEntries fuel ((key, value.getD .empty) :: done)

end

/-- A node on one line, as keys are. -/
def lineNode : (fuel : Nat) → (floor : Nat) → Reader Tree
  | 0, _ => malformed
  | fuel + 1, floor => do
    match ← peek with
    | some '[' | some '\x7b' => flowNode (2 * (← get).rest.length + 2)
    | some '"' => return .scalar .verbatim (← quoted '"')
    | some '\'' => return .scalar .verbatim (← quoted '\'')
    | some '*' => aliased
    | some '&' => do
      let name ← anchorName
      skip
      anchor name (← lineNode fuel floor)
    | some '!' => do
      let tag ← tag false
      skip
      return tagged tag (← lineNode fuel floor)
    | _ => return .scalar .implicit (← plain false floor)

/-- A key and its colon, on one line. -/
def key (floor : Nat) : Reader Tree := do
  let start ← get
  let tree ← lineNode (start.rest.length + 1) floor
  skip
  let cur ← get
  need (cur.line == start.line)
  expect ':'
  need (endsWord (← get).rest)
  return tree

/-- A key and its colon, if they stand here. -/
def key? (floor : Nat) : Reader (Option Tree) := do
  let cur ← get
  if !cur.fresh then return none
  match (key floor).run cur with
  | .ok (tree, after) => set after; return some tree
  | .error .malformed => return none
  | .error stop => throw stop

mutual

/-- A node in block layout at `floor` or to the right of it, which may be missing. Where `level` is
set, the items of a list may stand just left of `floor`. -/
def node : (fuel : Nat) → (floor : Nat) → (level : Bool) → Reader Tree
  | 0, _, _ => malformed
  | fuel + 1, floor, level => do
    skip
    let cur ← get
    if cur.ended then return .empty
    else if cur.column < floor then
      if level && cur.column + 1 == floor && cur.atEntry then items fuel cur.column true []
      else return .empty
    else if cur.atEntry then
      need cur.fresh
      items fuel cur.column false []
    else if cur.atSign '?' then
      need cur.fresh
      entries fuel cur.column none []
    else
      match ← key? floor with
      | some tree => entries fuel cur.column (some tree) []
      | none =>
        match ← peek with
        | some '|' => return .scalar .verbatim (← blockScalar false floor)
        | some '>' => return .scalar .verbatim (← blockScalar true floor)
        | some '&' => anchor (← anchorName) (← node fuel floor level)
        | some '!' => return tagged (← tag false) (← node fuel floor level)
        | _ => lineNode (cur.rest.length + 1) floor

/-- The items of a list at a column after the ones that are done. Where the list stands at the
column of the mapping that holds it, the next key ends it. -/
def items : (fuel : Nat) → (column : Nat) → (level : Bool) → (done : List Tree) → Reader Tree
  | 0, _, _, _ => malformed
  | fuel + 1, column, level, done => do
    forward 1
    modify fun cur => { cur with fresh := true }
    let item ← node fuel (column + 1) false
    skip
    let cur ← get
    if cur.ended || cur.column < column then return .list (item :: done).reverse
    else
      need (cur.column == column)
      if cur.atEntry && cur.fresh then items fuel column level (item :: done)
      else
        need level
        return .list (item :: done).reverse

/-- The entries of a mapping at a column after the ones that are done. Where the next key has not
been read yet, it stands after a question mark. -/
def entries : (fuel : Nat) → (column : Nat) → (first : Option Tree) →
    (done : List (Tree × Tree)) → Reader Tree
  | 0, _, _, _ => malformed
  | fuel + 1, column, first, done => do
    let entry ← match first with
      | some tree => do pure (tree, ← node fuel (column + 1) true)
      | none => markedEntry fuel column
    let done := entry :: done
    skip
    let cur ← get
    if cur.ended || cur.column < column then return .map done.reverse
    else
      need (cur.column == column && cur.fresh)
      if cur.atSign '?' then entries fuel column none done
      else entries fuel column (some (← key column)) done

/-- An entry whose key stands after a question mark; its value, if it has one, stands after a colon
in the same column. -/
def markedEntry : (fuel : Nat) → (column : Nat) → Reader (Tree × Tree)
  | 0, _ => malformed
  | fuel + 1, column => do
    forward 1
    modify fun cur => { cur with fresh := true }
    let tree ← node fuel (column + 1) true
    skip
    let cur ← get
    if !cur.ended && cur.column == column && cur.fresh && cur.atSign ':' then
      forward 1
      modify fun cur => { cur with fresh := true }
      return (tree, ← node fuel (column + 1) true)
    else return (tree, .empty)

end

/-! ### Documents -/

/-- Goes over marks that end a document. -/
def endMarks : (fuel : Nat) → Reader Unit
  | 0 => malformed
  | fuel + 1 => do
    skip
    if (← get).atMark "..." then
      forward 3
      endMarks fuel

/-- Goes over directives, and returns whether there were any. -/
def directives : (fuel : Nat) → Reader Bool
  | 0 => malformed
  | fuel + 1 => do
    skip
    if (← get).column == 0 && (← peek) == some '%' then
      let _ ← takeRun fun c => !isBreak c
      let _ ← directives fuel
      return true
    else return false

/-- A document, which is the whole text. -/
def document : Reader Tree := do
  let fuel := 2 * (← get).rest.length + 4
  let directed ← directives fuel
  let cur ← get
  if cur.atMark "---" then forward 3
  else need (!directed && !cur.atMark "...")
  let tree ← node fuel 0 false
  endMarks fuel
  need (← get).rest.isEmpty
  return tree

/-- The characters that a document may hold. -/
def isAllowed (c : Char) : Bool :=
  let n := c.toNat
  c == '\t' || c == '\n' || c == '\r' || (0x20 ≤ n && n ≤ 0x7e) || n == 0x85 ||
    (0xa0 ≤ n && n ≤ 0xfffd) || 0x10000 ≤ n

/-- A text with one character for each line break. -/
def unifyBreaks : List Char → List Char
  | '\r' :: '\n' :: cs => '\n' :: unifyBreaks cs
  | c :: cs => (if c == '\r' || c == '\x85' then '\n' else c) :: unifyBreaks cs
  | [] => []

/-- The tree of a text. -/
def treeOf (s : String) : Except Stop Tree :=
  let cs := match s.toList with
    | '\ufeff' :: cs => cs
    | cs => cs
  if cs.all isAllowed then (document.run ⟨unifyBreaks cs, 0, 0, true, []⟩).map (·.1)
  else .error .malformed

/-! ### Values -/

/-- The value of a scalar. -/
def scalarValue (reading : Reading) (s : String) : Outcome Value :=
  match reading with
  | .implicit => Implicit.value s
  | .verbatim => .ok (.text s)
  | .whole => .int <$> wholeValue s
  | .number => .float <$> realValue s
  | .truth =>
    match truth? s.toLower with
    | some b => .ok (.bool b)
    | none => .error (.missingKey (.text s.toLower))

/-- An entry of a mapping: the entries that it merges, or a key and a value. -/
inductive Entry where
  | merge (entries : List (Atom × Value))
  | own (key : Atom) (value : Value)

/-- The key that a scalar stands for: a default key stands for itself. -/
def keyValue (s : String) : Outcome Value :=
  match Implicit.ofText s with
  | .default => .ok (.text s)
  | _ => Implicit.value s

/-- The entries of a mapping. -/
def mergeable : Value → Outcome (List (Atom × Value))
  | .map es => .ok es
  | _ => .error .unreadableDocument

/-- The entries that the value of a merge key adds: those of a mapping, or of several, of which the
first counts most. -/
def mergedEntries : Value → Outcome (List (Atom × Value))
  | .list vs => do return (← vs.reverse.mapM mergeable).flatten
  | v => mergeable v

/-- A mapping of entries: the merged ones in front. -/
def mapOf (es : List Entry) : Value :=
  let merged := es.flatMap fun
    | .merge es => es
    | .own _ _ => []
  let own := es.filterMap fun
    | .merge _ => none
    | .own k v => some (k, v)
  .map ((merged ++ own).foldl (fun es (k, v) => insertEntry k v es) [])

/-- The key of a value; a key is an atom. -/
def keyOf : Value → Outcome Atom
  | .atom a => .ok a
  | _ => .error .unreadableDocument

/-- Whether a tree is the key that merges. -/
def isMergeKey : Tree → Bool
  | .scalar .implicit "<<" => true
  | _ => false

mutual

/-- The value of a tree. -/
def Tree.value : Tree → Outcome Value
  | .scalar reading s => scalarValue reading s
  | .list ts => do return .list (← itemValues ts)
  | .map es => do return mapOf (← entryValues es)
  | .mistagged => .error .unreadableDocument

/-- The value of a tree as a key. -/
def Tree.keyValue : Tree → Outcome Value
  | .scalar .implicit s => Document.keyValue s
  | .scalar reading s => scalarValue reading s
  | .list _ | .map _ | .mistagged => .error .unreadableDocument

/-- The values of trees. -/
def itemValues : List Tree → Outcome (List Value)
  | [] => .ok []
  | t :: ts => do return (← t.value) :: (← itemValues ts)

/-- The entries of a mapping. -/
def entryValues : List (Tree × Tree) → Outcome (List Entry)
  | [] => .ok []
  | e :: es => do return (← entryValue e) :: (← entryValues es)

/-- An entry of a mapping. -/
def entryValue : Tree × Tree → Outcome Entry
  | (k, v) => do
    if isMergeKey k then return .merge (← mergedEntries (← v.value))
    let key ← keyOf (← k.keyValue)
    return .own key (← v.value)

end

/-- The value of the document in a text. -/
def read (s : String) : Outcome Value :=
  match treeOf s with
  | .ok tree => tree.value
  | .error stop => .error stop.fault

end RobotProgram.Document
