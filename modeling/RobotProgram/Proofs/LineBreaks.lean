import Mathlib.Tactic.Common
import RobotProgram.Program.Settings

/-!
# Texts on one line

A text is a line when it holds no line break. Lines that are joined by a separator which starts with
a line break are found again as the pieces between the separators (`pieces_intercalate`). Numbers
are written on one line (`Number.isLine_plain`), so the doubled indentation of a procedure's body is
a line if the indentation is one, whatever kind of value it is (`Settings.isLine_doubleIndent`).
-/

namespace RobotProgram

/-- A text on one line. -/
def IsLine (s : String) : Prop := ∀ c ∈ s.toList, c ≠ '\n' ∧ c ≠ '\r'

-- The characters of the text are looked through, not all characters that there are.
instance : DecidablePred IsLine := fun s => List.decidableBAll _ s.toList

/-- Two texts are one line exactly when each of them is. -/
theorem isLine_append {s t : String} : IsLine (s ++ t) ↔ IsLine s ∧ IsLine t := by
  unfold IsLine
  rw [String.toList_append, List.forall_mem_append]

/-- A text of characters is a line if none of them is a break. -/
theorem isLine_ofList {cs : List Char} :
    IsLine (String.ofList cs) ↔ ∀ c ∈ cs, c ≠ '\n' ∧ c ≠ '\r' := by
  rw [IsLine, String.toList_ofList]

/-- A joined text is a line if its separator and its parts are. -/
theorem isLine_intercalate {sep : String} {texts : List String} (hsep : IsLine sep) :
    IsLine (String.intercalate sep texts) ↔ ∀ t ∈ texts, IsLine t := by
  induction texts with
  | nil => simp [IsLine]
  | cons t texts ih =>
    cases texts with
    | nil => simp
    | cons t' texts =>
      rw [String.intercalate_cons_cons, isLine_append, isLine_append, ih, and_iff_left hsep]
      exact List.forall_mem_cons.symm

/-- A choice between two lines is a line. -/
theorem isLine_ite {p : Prop} [Decidable p] {s t : String} (hs : IsLine s) (ht : IsLine t) :
    IsLine (if p then s else t) := by
  split_ifs
  · exact hs
  · exact ht

/-- Digits do not break a line. -/
theorem isLine_of_isDigit {cs : List Char} (h : ∀ c ∈ cs, c.isDigit = true) :
    IsLine (String.ofList cs) := by
  rw [isLine_ofList]
  intro c hc
  constructor
  · rintro rfl
    exact absurd (h _ hc) (by decide)
  · rintro rfl
    exact absurd (h _ hc) (by decide)

/-- A natural number is written on one line. -/
theorem isLine_toString_nat (n : Nat) : IsLine (toString n) :=
  isLine_of_isDigit fun _ hc => Nat.isDigit_of_mem_toDigits (by decide) (by decide) hc

/-- A whole number is written on one line. -/
theorem isLine_toString_int (n : Int) : IsLine (toString n) := by
  cases n with
  | ofNat m => exact isLine_toString_nat m
  | negSucc m => exact isLine_append.mpr ⟨by decide, isLine_toString_nat (m + 1)⟩

/-! ### Pieces -/

/-- The pieces of a text between the places where a separator stands, from left to right. The first
`skip` characters belong to a separator that was found. -/
def piecesFrom (sep : List Char) : Nat → List Char → List (List Char)
  | _, [] => [[]]
  | skip + 1, _ :: cs => piecesFrom sep skip cs
  | 0, c :: cs =>
    if sep.isPrefixOf (c :: cs) then [] :: piecesFrom sep (sep.length - 1) cs
    else
      match piecesFrom sep 0 cs with
      | [] => [[c]]
      | piece :: pieces => (c :: piece) :: pieces

/-- The pieces of a text between the places where a separator stands. -/
def pieces (sep text : String) : List String :=
  (piecesFrom sep.toList 0 text.toList).map String.ofList

/-- The characters that are to be skipped belong to no piece. -/
theorem piecesFrom_append (sep : List Char) (cs rest : List Char) :
    piecesFrom sep cs.length (cs ++ rest) = piecesFrom sep 0 rest := by
  induction cs with
  | nil => rfl
  | cons c cs ih => exact ih

/-- A separator ends the first piece, if its first character does not occur in that piece. -/
theorem piecesFrom_piece {s : Char} {ss piece : List Char} (h : s ∉ piece) (rest : List Char) :
    piecesFrom (s :: ss) 0 (piece ++ (s :: ss) ++ rest) = piece :: piecesFrom (s :: ss) 0 rest := by
  induction piece with
  | nil =>
    have hprefix : (s :: ss).isPrefixOf (s :: (ss ++ rest)) = true := by simp
    have hskip := piecesFrom_append (s :: ss) ss rest
    simp only [List.nil_append, List.cons_append, piecesFrom, hprefix, if_true, List.length_cons,
      Nat.add_sub_cancel, hskip]
  | cons c piece ih =>
    rw [List.mem_cons, not_or] at h
    have hprefix : (s :: ss).isPrefixOf (c :: (piece ++ (s :: ss) ++ rest)) = false := by
      rw [List.isPrefixOf, beq_eq_false_iff_ne.mpr h.1, Bool.false_and]
    rw [List.cons_append, List.cons_append, piecesFrom, hprefix, if_neg Bool.false_ne_true, ih h.2]

/-- The last piece has no separator. -/
theorem piecesFrom_last {s : Char} {ss piece : List Char} (h : s ∉ piece) :
    piecesFrom (s :: ss) 0 piece = [piece] := by
  induction piece with
  | nil => rfl
  | cons c piece ih =>
    rw [List.mem_cons, not_or] at h
    have hprefix : (s :: ss).isPrefixOf (c :: piece) = false := by
      rw [List.isPrefixOf, beq_eq_false_iff_ne.mpr h.1, Bool.false_and]
    rw [piecesFrom, hprefix, if_neg Bool.false_ne_true, ih h.2]

/-- Texts that are joined are the pieces of the whole, if the first character of the separator does
not occur in them. -/
theorem pieces_intercalate {sep : String} {s : Char} {ss : List Char} (hsep : sep.toList = s :: ss)
    {texts : List String} (hne : texts ≠ []) (h : ∀ t ∈ texts, s ∉ t.toList) :
    pieces sep (String.intercalate sep texts) = texts := by
  induction texts with
  | nil => exact absurd rfl hne
  | cons t texts ih =>
    rw [List.forall_mem_cons] at h
    cases texts with
    | nil =>
      rw [String.intercalate_singleton, pieces, hsep, piecesFrom_last h.1]
      simp
    | cons t' texts =>
      have hrest := ih (List.cons_ne_nil _ _) h.2
      unfold pieces at hrest ⊢
      rw [hsep] at hrest ⊢
      rw [String.intercalate_cons_cons, String.toList_append, String.toList_append, hsep,
        piecesFrom_piece h.1, List.map_cons, hrest, String.ofList_toList]

/-! ### Numbers -/

namespace Number

/-- A decimal that is made of digits. -/
def Decimal.IsPlain (x : Decimal) : Prop := ∀ c ∈ x.digits, c.isDigit = true

/-- A decimal on a grid is made of digits. -/
theorem Decimal.isPlain_ofGrid (c : Nat) (p : Int) : (Decimal.ofGrid c p).IsPlain := by
  intro d hd
  have hkept := List.dropWhile_sublist (· == '0') |>.mem (List.mem_reverse.mp hd)
  exact Nat.isDigit_of_mem_toDigits (by decide) (by decide) (List.mem_reverse.mp hkept)

/-- A decimal that is found on a grid is made of digits. -/
theorem isPlain_of_onGrid? {x : Dyadic} {p : Int} {d : Decimal} (h : onGrid? x p = some d) :
    d.IsPlain := by
  simp only [onGrid?] at h
  split_ifs at h <;> obtain rfl := Option.some_inj.mp h <;> exact Decimal.isPlain_ofGrid _ _

/-- The shortest decimal is made of digits. -/
theorem isPlain_shortestFrom (x : Dyadic) (e : Int) (k : Nat) : (shortestFrom x e k).IsPlain := by
  induction k with
  | zero => exact Decimal.isPlain_ofGrid _ _
  | succ k ih =>
    rw [shortestFrom]
    cases hgrid : onGrid? x (e - (16 - k)) with
    | none => exact ih
    | some d => exact isPlain_of_onGrid? hgrid

/-- An exponent is written on one line. -/
theorem isLine_exponentText (e : Int) : IsLine (exponentText e) := by
  have hdigits := isLine_toString_nat e.natAbs
  unfold exponentText
  rw [isLine_append]
  exact ⟨isLine_ite (by decide) (by decide),
    isLine_ite (isLine_append.mpr ⟨by decide, hdigits⟩) hdigits⟩

/-- A positive decimal is written on one line. -/
theorem Layout.isLine_decimal (l : Layout) {x : Decimal} (hx : x.IsPlain) :
    IsLine (l.decimal x) := by
  have hzeros (n : Nat) : ∀ c ∈ List.replicate n '0', c.isDigit = true := fun c hc =>
    List.eq_of_mem_replicate hc ▸ rfl
  have hfraction (b : Bool) : IsLine (if b then ".0" else "") :=
    isLine_ite (by decide) (by decide)
  -- Digits on both sides of a point.
  have hsplit (n : Nat) :
      IsLine (String.ofList (x.digits.take n) ++ "." ++ String.ofList (x.digits.drop n)) := by
    rw [isLine_append, isLine_append]
    exact ⟨⟨isLine_of_isDigit fun c hc => hx c (List.mem_of_mem_take hc), by decide⟩,
      isLine_of_isDigit fun c hc => hx c (List.mem_of_mem_drop hc)⟩
  have hbelow : IsLine
      ("0." ++ String.ofList (List.replicate (-x.exponent - 1).toNat '0' ++ x.digits)) := by
    rw [isLine_append]
    exact ⟨by decide, isLine_of_isDigit (List.forall_mem_append.mpr ⟨hzeros _, hx⟩)⟩
  have hwhole (n : Nat) : IsLine
      (String.ofList (x.digits ++ List.replicate n '0') ++
        if l.wholeFraction then ".0" else "") := by
    rw [isLine_append]
    exact ⟨isLine_of_isDigit (List.forall_mem_append.mpr ⟨hx, hzeros _⟩), hfraction _⟩
  refine isLine_ite (isLine_ite hbelow (isLine_ite (hwhole _) (hsplit _)))
    (isLine_append.mpr ⟨?_, isLine_exponentText _⟩)
  -- The significand of a decimal with an exponent.
  split
  · next d hd =>
    rw [isLine_append]
    exact ⟨isLine_of_isDigit (hd ▸ hx), hfraction _⟩
  · exact hsplit 1

/-- A number is written on one line. -/
theorem isLine_plain (x : Float) : IsLine (plain x) := by
  have hsign (b : Bool) : IsLine (if b then "-" else "") := isLine_ite (by decide) (by decide)
  unfold plain Layout.write
  split
  · decide
  · exact isLine_append.mpr ⟨hsign _, by decide⟩
  · refine isLine_append.mpr ⟨hsign _, Layout.isLine_decimal _ ?_⟩
    split_ifs
    · intro c hc
      rw [List.mem_singleton.mp hc]
      rfl
    · exact isPlain_shortestFrom _ _ _

end Number

/-! ### The doubled indentation -/

/-- The literals of two lists in a row are those of each of them. -/
theorem literals_append (xs ys : List Value) :
    literals (xs ++ ys) = literals xs ++ literals ys := by
  induction xs with
  | nil => rfl
  | cons x xs ih => rw [List.cons_append, literals, ih, literals, List.cons_append]

/-- Twice a line is a line. -/
theorem Program.Settings.isLine_doubleIndent {s : Settings} {double : String}
    (h : IsLine s.indent.toText) (hdouble : s.doubleIndent = .ok double) : IsLine double := by
  unfold doubleIndent at hdouble
  split at hdouble
  · next i hi =>
    rw [hi] at h
    obtain rfl := Except.ok.inj hdouble
    exact isLine_append.mpr ⟨h, h⟩
  · next xs hxs =>
    rw [hxs] at h
    obtain rfl := Except.ok.inj hdouble
    have hsep : IsLine ", " := by decide
    change IsLine ("[" ++ String.intercalate ", " (literals (xs ++ xs)) ++ "]")
    change IsLine ("[" ++ String.intercalate ", " (literals xs) ++ "]") at h
    rw [isLine_append, isLine_append, isLine_intercalate hsep] at h ⊢
    rw [literals_append, List.forall_mem_append]
    exact ⟨⟨h.1.1, h.1.2, h.1.2⟩, h.2⟩
  · unfold Value.written at hdouble
    split_ifs at hdouble
    obtain rfl := Except.ok.inj hdouble
    exact isLine_toString_int _
  · next b _ =>
    obtain rfl := Except.ok.inj hdouble
    cases b <;> decide
  · obtain rfl := Except.ok.inj hdouble
    exact Number.isLine_plain _
  · cases hdouble

end RobotProgram
