import RobotProgram.Calendar
import RobotProgram.Number.Shortest
import RobotProgram.Text.Quoted

/-!
# Plain data

Records, documents and settings are plain data: atoms, lists, and mappings from atoms that keep the
order of their entries. Names and other fields that the program never checks hold such values as
they were given, so their truth, their equality and their two texts are defined here.
-/

namespace RobotProgram

/-- A value without parts. -/
inductive Atom where
  | null
  | bool (b : Bool)
  | int (n : Int)
  | float (x : Float)
  | text (s : String)
  | date (year month day : Nat)
  /-- A day with a time. -/
  | moment (year month day : Nat) (clock : Clock)
deriving DecidableEq

/-- Plain data. -/
inductive Value where
  | atom (a : Atom)
  | list (items : List Value)
  | map (entries : List (Atom × Value))

namespace Value

/-- Nothing. -/
@[match_pattern]
abbrev null : Value := .atom .null

/-- A truth value. -/
@[match_pattern]
abbrev bool (b : Bool) : Value := .atom (.bool b)

/-- A whole number. -/
@[match_pattern]
abbrev int (n : Int) : Value := .atom (.int n)

/-- A floating-point number. -/
@[match_pattern]
abbrev float (x : Float) : Value := .atom (.float x)

/-- A text. -/
@[match_pattern]
abbrev text (s : String) : Value := .atom (.text s)

instance : Inhabited Value := ⟨null⟩

/-- A mapping with text keys. -/
def record (fields : List (String × Value)) : Value :=
  .map (fields.map fun (k, v) => (.text k, v))

/-- A list of texts. -/
def texts (ss : List String) : Value :=
  .list (ss.map text)

mutual

/-- Whether two values are the same data. -/
def decEq : (a b : Value) → Decidable (a = b)
  | .atom a, .atom b => decidable_of_iff (a = b) (by simp)
  | .list as, .list bs =>
    match decEqList as bs with
    | isTrue h => isTrue (by rw [h])
    | isFalse h => isFalse (by simpa using h)
  | .map as, .map bs =>
    match decEqEntries as bs with
    | isTrue h => isTrue (by rw [h])
    | isFalse h => isFalse (by simpa using h)
  | .atom _, .list _ | .atom _, .map _ | .list _, .atom _ | .list _, .map _ | .map _, .atom _
  | .map _, .list _ => isFalse (by simp)

/-- Decides whether the values of two lists are the same. -/
def decEqList : (as bs : List Value) → Decidable (as = bs)
  | [], [] => isTrue rfl
  | [], _ :: _ | _ :: _, [] => isFalse (by simp)
  | a :: as, b :: bs =>
    match decEq a b, decEqList as bs with
    | isTrue h, isTrue hs => isTrue (by rw [h, hs])
    | isFalse h, _ => isFalse (by simp [h])
    | _, isFalse hs => isFalse (by simp [hs])

/-- Decides whether the entries of two mappings are the same. -/
def decEqEntries : (as bs : List (Atom × Value)) → Decidable (as = bs)
  | [], [] => isTrue rfl
  | [], _ :: _ | _ :: _, [] => isFalse (by simp)
  | (k, a) :: as, (l, b) :: bs =>
    match (inferInstance : Decidable (k = l)), decEq a b, decEqEntries as bs with
    | isTrue hk, isTrue h, isTrue hs => isTrue (by rw [hk, h, hs])
    | isFalse hk, _, _ => isFalse (by simp [hk])
    | _, isFalse h, _ => isFalse (by simp [h])
    | _, _, isFalse hs => isFalse (by simp [hs])

end

instance : DecidableEq Value := decEq

end Value

/-! ### Equality

Whole numbers, floating-point numbers and truth values are equal when their exact values are, and
times in zones when they are the same instant. -/

/-- The whole number that a truth value or a whole number stands for. -/
def Atom.whole? : Atom → Option Int
  | .bool b => some (if b then 1 else 0)
  | .int n => some n
  | _ => none

/-- Whether two atoms are equal, as keys and as values. -/
def Atom.same : Atom → Atom → Bool
  | .null, .null => true
  | .text s, .text t => s == t
  | .date y m d, .date y' m' d' => y == y' && m == m' && d == d'
  | .moment y m d c, .moment y' m' d' c' =>
    c.zone.isSome == c'.zone.isSome && c.instant y m d == c'.instant y' m' d'
  | .float x, .float y => x == y
  | .float x, b => b.whole?.any fun n => Number.compareInt x n == some .eq
  | a, .float y => a.whole?.any fun n => Number.compareInt y n == some .eq
  | a, b =>
    match a.whole?, b.whole? with
    | some m, some n => m == n
    | _, _ => false

/-- Whether a name is found under a key: it is the key itself or equal to it. Not-a-number, which
equals nothing, is found under itself. -/
def Atom.finds (a key : Atom) : Bool := decide (a = key) || a.same key

/-- The value stored under a key. -/
def entry? (key : Atom) (entries : List (Atom × Value)) : Option Value :=
  (entries.find? fun e => e.1.same key).map (·.2)

/-- Stores a value under a key: in its place if the key is there, else at the end. -/
def insertEntry (key : Atom) (v : Value) : List (Atom × Value) → List (Atom × Value)
  | [] => [(key, v)]
  | (k, w) :: rest => if k.same key then (k, v) :: rest else (k, w) :: insertEntry key v rest

mutual

/-- Whether two values are equal; the order of entries does not matter. -/
def Value.same : Value → Value → Bool
  | .atom a, .atom b => a.same b
  | .list xs, .list ys => sameItems xs ys
  | .map xs, .map ys => xs.length == ys.length && sameEntries xs ys
  | _, _ => false

/-- Whether two lists are equal item by item. -/
def sameItems : List Value → List Value → Bool
  | [], [] => true
  | x :: xs, y :: ys => x.same y && sameItems xs ys
  | _, _ => false

/-- Whether every entry of the first mapping is in the second. -/
def sameEntries : List (Atom × Value) → List (Atom × Value) → Bool
  | [], _ => true
  | (k, v) :: rest, ys =>
    (match entry? k ys with
      | some w => v.same w
      | none => false) && sameEntries rest ys

end

/-! ### Truth and look-up -/

/-- What counts as true: everything but nothing, zero and the empty. -/
def Value.truthy : Value → Bool
  | .null => false
  | .bool b => b
  | .int n => n != 0
  | .float x => !(x == 0.0)
  | .text s => s != ""
  | .atom (.date ..) | .atom (.moment ..) => true
  | .list xs => !xs.isEmpty
  | .map es => !es.isEmpty

/-- The field of a record. -/
def field? (key : String) (entries : List (Atom × Value)) : Option Value :=
  entry? (.text key) entries

/-- The field of a record, or a default. -/
def fieldD (key : String) (entries : List (Atom × Value)) (default : Value) : Value :=
  (field? key entries).getD default

/-! ### Texts

The literal form shows a value as data; the plain text of a text is the text itself. -/

/-- A day as the arguments of its literal form. -/
def dayLiteral (year month day : Nat) : String :=
  toString year ++ ", " ++ toString month ++ ", " ++ toString day

/-- The text of a day. -/
def dayText (year month day : Nat) : String :=
  zeroFilled 4 year ++ "-" ++ zeroFilled 2 month ++ "-" ++ zeroFilled 2 day

/-- The literal form of an atom. -/
def Atom.literal : Atom → String
  | .null => "None"
  | .bool b => if b then "True" else "False"
  | .int n => toString n
  | .float x => Number.plain x
  | .text s => Text.quoted s
  | .date y m d => "datetime.date(" ++ dayLiteral y m d ++ ")"
  | .moment y m d c => "datetime.datetime(" ++ dayLiteral y m d ++ c.literal ++ ")"

mutual

/-- The literal form of a value. -/
def Value.literal : Value → String
  | .atom a => a.literal
  | .list xs => "[" ++ String.intercalate ", " (literals xs) ++ "]"
  | .map es => "\x7b" ++ String.intercalate ", " (entryLiterals es) ++ "\x7d"

/-- The literal forms of list items. -/
def literals : List Value → List String
  | [] => []
  | x :: xs => x.literal :: literals xs

/-- The literal forms of entries. -/
def entryLiterals : List (Atom × Value) → List String
  | [] => []
  | (k, v) :: es => (k.literal ++ ": " ++ v.literal) :: entryLiterals es

end

/-- The plain text of a value. -/
def Value.toText : Value → String
  | .text s => s
  | .atom (.date y m d) => dayText y m d
  | .atom (.moment y m d c) => dayText y m d ++ " " ++ c.text
  | v => v.literal

/-! ### Length

A whole number of more digits than `longestNumber` can be held, but it is neither written in decimal
digits nor read from them. The texts above are those of data whose numbers are short enough. -/

/-- The most decimal digits that a whole number is written with or read from. -/
def longestNumber : Nat := 4300

/-- Whether an atom is no whole number that is too long to be written. -/
def Atom.isShort : Atom → Bool
  | .int n => decide (n.natAbs < Nat.pow 10 longestNumber)
  | _ => true

mutual

/-- Whether no whole number in a value is too long to be written. -/
def Value.isShort : Value → Bool
  | .atom a => a.isShort
  | .list xs => itemsShort xs
  | .map es => entriesShort es

/-- Whether no whole number in list items is too long to be written. -/
def itemsShort : List Value → Bool
  | [] => true
  | x :: xs => x.isShort && itemsShort xs

/-- Whether no whole number in entries is too long to be written. -/
def entriesShort : List (Atom × Value) → Bool
  | [] => true
  | (k, v) :: es => k.isShort && v.isShort && entriesShort es

end

/-- The name of a value's kind in messages. -/
def Value.kindName : Value → String
  | .null => "NoneType"
  | .bool _ => "bool"
  | .int _ => "int"
  | .float _ => "float"
  | .text _ => "str"
  | .atom (.date ..) => "date"
  | .atom (.moment ..) => "datetime"
  | .list _ => "list"
  | .map _ => "dict"

end RobotProgram
