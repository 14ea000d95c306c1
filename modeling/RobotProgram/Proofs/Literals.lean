import Mathlib.Data.List.DropRight
import RobotProgram.Number.Fixed
import RobotProgram.Proofs.Equality

/-!
# Numbers in program text

A number is written with a fixed number of decimals, and then loses the zeros at its end. This takes
characters away from a text, so it has to be shown that what is left is a number again
(`dropIdleFraction_point`). A finite number is then written as a decimal literal
(`isDecimal_render`), and any other one is not (`render_mem_of_not_isFinite`).
-/

namespace RobotProgram.Number

/-! ### Decimal literals -/

/-- Digits, at least one. -/
def isDigits (cs : List Char) : Bool := !cs.isEmpty && cs.all Char.isDigit

/-- Digits, and perhaps a point with more digits. -/
def isUnsigned (cs : List Char) : Bool :=
  isDigits (cs.takeWhile Char.isDigit) &&
    match cs.dropWhile Char.isDigit with
    | [] => true
    | c :: ds => c == '.' && isDigits ds

/-- A decimal literal: perhaps a sign, digits, and perhaps a fraction. -/
def isDecimal (s : String) : Bool :=
  match s.toList with
  | '-' :: cs => isUnsigned cs
  | cs => isUnsigned cs

/-- The fraction of a literal, if there is one. -/
def IsFraction (cs : List Char) : Prop := cs = [] ∨ ∃ ds, cs = '.' :: ds ∧ isDigits ds = true

/-- Digits are some characters, all of which are digits. -/
theorem isDigits_iff {ds : List Char} :
    isDigits ds = true ↔ ds ≠ [] ∧ ∀ c ∈ ds, c.isDigit = true := by
  simp [isDigits]

/-- Digits and a fraction are a literal without a sign. -/
theorem isUnsigned_append {whole fraction : List Char} (hwhole : isDigits whole = true)
    (hfraction : IsFraction fraction) : isUnsigned (whole ++ fraction) = true := by
  have hall := (isDigits_iff.mp hwhole).2
  unfold isUnsigned
  rw [List.takeWhile_append_of_pos hall, List.dropWhile_append_of_pos hall]
  obtain rfl | ⟨ds, rfl, hds⟩ := hfraction
  · simpa using hwhole
  · -- The point ends the digits before it.
    have hpoint : ('.' :: ds).takeWhile Char.isDigit = [] := rfl
    have hrest : ('.' :: ds).dropWhile Char.isDigit = '.' :: ds := rfl
    rw [hpoint, hrest, List.append_nil, hwhole]
    exact hds

/-- The sign of a literal. -/
def signText (negative : Bool) : List Char := if negative then ['-'] else []

/-- A sign, digits and a fraction are a literal. -/
theorem isDecimal_of_parts (negative : Bool) {whole fraction : List Char}
    (hwhole : isDigits whole = true) (hfraction : IsFraction fraction) :
    isDecimal (String.ofList (signText negative ++ (whole ++ fraction))) = true := by
  have hunsigned := isUnsigned_append hwhole hfraction
  unfold isDecimal
  rw [String.toList_ofList]
  cases negative with
  | true => exact hunsigned
  | false =>
    -- A digit is no sign.
    change (match whole ++ fraction with
      | '-' :: cs => isUnsigned cs
      | cs => isUnsigned cs) = true
    split
    · rename_i cs hcs
      cases whole with
      | nil => cases hwhole
      | cons c whole =>
        obtain ⟨rfl, -⟩ := List.cons.inj hcs
        cases (isDigits_iff.mp hwhole).2 '-' (by simp)
    · exact hunsigned

/-! ### Digits of numbers -/

/-- The digits of a number are digits. -/
theorem isDigits_toDigits (n : Nat) : isDigits (Nat.toDigits 10 n) = true :=
  isDigits_iff.mpr
    ⟨Nat.toDigits_ne_nil, fun _ hc => Nat.isDigit_of_mem_toDigits (by decide) (by decide) hc⟩

/-- A fraction is made of digits. -/
theorem isDigit_of_mem_fractionDigits {places n : Nat} {c : Char}
    (h : c ∈ fractionDigits places n) : c.isDigit = true := by
  unfold fractionDigits at h
  obtain h | h := List.mem_append.mp h
  · rw [List.eq_of_mem_replicate h]
    rfl
  · exact Nat.isDigit_of_mem_toDigits (by decide) (by decide) h

/-- A digit is not the decimal point. -/
theorem ne_point_of_isDigit {c : Char} (h : c.isDigit = true) : c ≠ '.' := by
  rintro rfl
  cases h

/-! ### Idle zeros -/

/-- The fraction after a point loses the zeros at its end, and the point with them if nothing else
is left. -/
theorem dropIdleFraction_point {pre frac : List Char} (hpre : '.' ∉ pre) (hfrac : '.' ∉ frac) :
    dropIdleFraction (pre ++ '.' :: frac) =
      pre ++ if frac.rdropWhile (· == '0') = [] then [] else '.' :: frac.rdropWhile (· == '0') := by
  have hcontains : (pre ++ '.' :: frac).contains '.' = true := by simp
  have hkeep {cs : List Char} (hcs : '.' ∉ cs) : cs.dropWhile (· == '.') = cs := by
    cases cs with
    | nil => rfl
    | cons c cs =>
      simp only [List.mem_cons, not_or] at hcs
      exact List.dropWhile_cons_of_neg (by simpa using Ne.symm hcs.1)
  have hreverse : (pre ++ '.' :: frac).reverse = frac.reverse ++ '.' :: pre.reverse := by simp
  unfold dropIdleFraction List.rdropWhile
  rw [if_pos hcontains, hreverse, List.dropWhile_append]
  cases hrest : frac.reverse.dropWhile (· == '0') with
  | nil =>
    rw [if_pos List.isEmpty_nil, List.dropWhile_cons_of_neg (by decide),
      List.dropWhile_cons_of_pos (by decide), hkeep (by simpa using hpre)]
    simp
  | cons c cs =>
    -- A digit that is left keeps the point.
    have hmem : c ∈ frac := by
      have hsuffix := List.dropWhile_suffix (l := frac.reverse) (· == '0')
      simpa using hsuffix.subset (hrest ▸ List.mem_cons_self)
    have hc : c ≠ '.' := fun h => hfrac (h ▸ hmem)
    rw [if_neg (by simp), List.cons_append, List.dropWhile_cons_of_neg (by simpa using hc)]
    simp

/-- A text without a point stays as it is. -/
theorem dropIdleFraction_of_notMem {cs : List Char} (h : '.' ∉ cs) : dropIdleFraction cs = cs := by
  unfold dropIdleFraction
  rw [if_neg (by simpa using h)]

/-! ### Rendering -/

/-- A finite number is written with its sign, its whole part and its decimals. -/
theorem toList_fixed {x : Float} {d : Dyadic} (h : exact x = .finite d) (places : Nat) :
    (fixed places x).toList = signText d.negative ++
      (Nat.toDigits 10 (units places d / Nat.pow 10 places) ++
        if places = 0 then [] else '.' :: fractionDigits places (units places d)) := by
  unfold fixed unitsText
  rw [h]
  simp only [String.toList_append, Nat.toString_eq_repr, Nat.toList_repr]
  cases d.negative <;> by_cases hplaces : places = 0 <;> simp [signText, hplaces]

/-- A fraction as it is written: nothing, or a point and its digits. -/
def fractionText (ds : List Char) : List Char := if ds = [] then [] else '.' :: ds

/-- The digits behind the point without idle zeros. -/
def decimals (places n : Nat) : List Char := (fractionDigits places n).rdropWhile (· == '0')

/-- A fraction without its last zeros is made of digits. -/
theorem isDigit_of_mem_decimals {places n : Nat} {c : Char} (h : c ∈ decimals places n) :
    c.isDigit = true :=
  isDigit_of_mem_fractionDigits ((List.rdropWhile_prefix _ _).subset h)

/-- Where no decimals are written there is one digit, a zero, and it is idle. -/
theorem decimals_zero (n : Nat) : decimals 0 n = [] := by
  simp [decimals, fractionDigits, Nat.mod_one, List.rdropWhile]

/-- Such a fraction is none, or digits after a point. -/
theorem isFraction_decimals (places n : Nat) : IsFraction (fractionText (decimals places n)) := by
  unfold fractionText
  split_ifs with hnil
  · exact .inl rfl
  · exact .inr ⟨_, rfl, isDigits_iff.mpr ⟨hnil, fun _ hc => isDigit_of_mem_decimals hc⟩⟩

/-- What is left of a finite number without its idle zeros. -/
theorem dropIdleFraction_fixed {x : Float} {d : Dyadic} (h : exact x = .finite d) (places : Nat) :
    dropIdleFraction (fixed places x).toList = signText d.negative ++
      (Nat.toDigits 10 (units places d / Nat.pow 10 places) ++
        fractionText (decimals places (units places d))) := by
  have hwhole : '.' ∉ signText d.negative ++
      Nat.toDigits 10 (units places d / Nat.pow 10 places) := by
    rw [List.mem_append, not_or]
    constructor
    · cases d.negative <;> decide
    · exact fun hmem => ne_point_of_isDigit ((isDigits_iff.mp (isDigits_toDigits _)).2 _ hmem) rfl
  have hfrac : '.' ∉ fractionDigits places (units places d) :=
    fun hmem => ne_point_of_isDigit (isDigit_of_mem_fractionDigits hmem) rfl
  rw [toList_fixed h, ← List.append_assoc, ← List.append_assoc]
  by_cases hplaces : places = 0
  · subst hplaces
    rw [if_pos rfl, decimals_zero, List.append_nil, dropIdleFraction_of_notMem hwhole, fractionText,
      if_pos rfl, List.append_nil]
  · rw [if_neg hplaces, dropIdleFraction_point hwhole hfrac]
    rfl

/-- A float is finite exactly when it is a dyadic number. -/
theorem isFinite_iff {x : Float} : x.isFinite = true ↔ ∃ d, exact x = .finite d := by
  rw [exact_eq]
  unfold Float.isFinite Float.Model.isFinite
  cases x.toModel.unpack with
  | zero | finite => exact iff_of_true rfl ⟨_, rfl⟩
  | infinity | notANumber => exact iff_of_false nofun nofun

/-- What is written for a number that is not finite. -/
theorem render_mem_of_not_isFinite {x : Float} (h : ¬x.isFinite = true) (places : Nat) :
    render places x ∈ ["nan", "inf", "-inf"] := by
  have hfixed : fixed places x ∈ ["nan", "inf", "-inf"] := by
    unfold fixed
    cases hx : exact x with
    | finite d => exact absurd (isFinite_iff.mpr ⟨d, hx⟩) h
    | nan => simp
    | infinite negative => cases negative <;> simp
  unfold render
  generalize fixed places x = text at hfixed
  revert text
  decide

/-- A finite number is written as a decimal literal. -/
theorem isDecimal_render {x : Float} (h : x.isFinite = true) (places : Nat) :
    isDecimal (render places x) = true := by
  obtain ⟨d, hx⟩ := isFinite_iff.mp h
  unfold render
  rw [dropIdleFraction_fixed hx]
  dsimp only
  split_ifs
  · decide
  · exact isDecimal_of_parts _ (isDigits_toDigits _) (isFraction_decimals _ _)

/-- A whole number is written as a decimal literal. -/
theorem isDecimal_toString_int (n : Int) : isDecimal (toString n) = true := by
  have hparts : toString n =
      String.ofList (signText (decide (n < 0)) ++ (Nat.toDigits 10 n.natAbs ++ [])) := by
    apply String.toList_injective
    rw [Int.toString_eq_repr, String.toList_ofList]
    cases n with
    | ofNat m => simp [Int.repr, signText]
    | negSucc m => simp [Int.repr, signText]
  rw [hparts]
  exact isDecimal_of_parts _ (isDigits_toDigits _) (.inl rfl)

end RobotProgram.Number
