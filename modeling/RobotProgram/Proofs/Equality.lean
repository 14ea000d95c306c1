import Mathlib.Tactic.Common
import Mathlib.Tactic.LinearCombination
import Mathlib.Tactic.Ring
import RobotProgram.Value

/-!
# Equality of atoms

Whole numbers, floating-point numbers and truth values are compared by their exact values. A finite
floating-point number is a whole multiple of the least positive one, `2^-1074`, and two of them are
equal exactly when they are the same multiple (`beq_iff`): the layout of mantissa and exponent is
unique but for the sign of zero. So every atom but not-a-number has a worth, and `Atom.same_iff`
says that equal atoms are those of equal worth. That names are found by an equal key is then
transitive, which is what a table of names needs.
-/

namespace RobotProgram

namespace Number

open Float.Model (Format UnpackedFloat)
open Float.Model.UnpackedFloat (Sign)

/-! ### Finite numbers as whole multiples -/

/-- A number in units of the least positive one. -/
def Dyadic.units (d : Dyadic) : Int :=
  let size : Int := d.mantissa * 2 ^ (d.exponent + 1074).toNat
  if d.negative then -size else size

/-- The units of one. -/
@[irreducible]
def unitsOfOne : Int := 2 ^ 1074

/-- One is more than no units. -/
theorem unitsOfOne_ne_zero : unitsOfOne ≠ 0 := by
  rw [unitsOfOne]
  exact pow_ne_zero _ (by decide)

/-- The layout of the numbers that 64 bits stand for: the leading bit of the mantissa is set, unless
the exponent is the least. -/
structure Dyadic.Normal (d : Dyadic) : Prop where
  lt : d.mantissa < 2 ^ 53
  least : -1074 ≤ d.exponent
  leading : 2 ^ 52 ≤ d.mantissa ∨ d.exponent = -1074

/-- The bits of a finite number are laid out normally. -/
theorem normal_of_ofBits {bits : Nat} {d : Dyadic} (h : ofBits bits = .finite d) : d.Normal := by
  have hf : bits % 2 ^ 52 < 2 ^ 52 := Nat.mod_lt _ (by decide)
  simp only [ofBits, Nat.pow_eq] at h
  split_ifs at h with h1 h2 h3
  · obtain rfl := Exact.finite.inj h
    exact ⟨by simp only; omega, by simp, .inr rfl⟩
  · obtain rfl := Exact.finite.inj h
    exact ⟨by simp only; omega, by simp only; omega, .inl (by simp)⟩

/-- Of two normal layouts of one size, the one with the smaller exponent would need a mantissa that
is too long. -/
theorem exponent_le_of_size_eq {m m' p p' : Nat} (hm' : m' < 2 ^ 53) (hm : 2 ^ 52 ≤ m ∨ p = 0)
    (h : m * 2 ^ p = m' * 2 ^ p') : p ≤ p' := by
  by_contra hlt
  have hp : p ≠ 0 := by omega
  have hlong : 2 ^ 52 ≤ m := by omega
  -- The powers cancel up to a factor of at least two.
  have hsplit : p = p' + (p - p' - 1) + 1 := by omega
  have hcancel : m * 2 ^ (p - p' - 1) * 2 = m' := by
    have hpos : 0 < 2 ^ p' := Nat.two_pow_pos p'
    apply Nat.eq_of_mul_eq_mul_right hpos
    rw [← h]
    nth_rewrite 2 [hsplit]
    ring
  have hone : 1 ≤ 2 ^ (p - p' - 1) := Nat.one_le_two_pow
  have hbig : 2 ^ 52 * 1 ≤ m * 2 ^ (p - p' - 1) := Nat.mul_le_mul hlong hone
  omega

/-- Normal layouts of one size are the same. -/
theorem layout_eq_of_size_eq {m m' p p' : Nat} (hm : m < 2 ^ 53) (hm' : m' < 2 ^ 53)
    (hlead : 2 ^ 52 ≤ m ∨ p = 0) (hlead' : 2 ^ 52 ≤ m' ∨ p' = 0)
    (h : m * 2 ^ p = m' * 2 ^ p') : m = m' ∧ p = p' := by
  have hle := exponent_le_of_size_eq hm' hlead h
  have hge := exponent_le_of_size_eq hm hlead' h.symm
  obtain rfl : p = p' := by omega
  exact ⟨Nat.eq_of_mul_eq_mul_right (Nat.two_pow_pos p) h, rfl⟩

/-- Finite numbers that are the same multiple are the same, or both are zero. -/
theorem Dyadic.Normal.eq_of_units {d d' : Dyadic} (hd : d.Normal) (hd' : d'.Normal)
    (h : d.units = d'.units) : d = d' ∨ d.mantissa = 0 ∧ d'.mantissa = 0 := by
  obtain ⟨s, m, e⟩ := d
  obtain ⟨s', m', e'⟩ := d'
  obtain ⟨hlt, hleast, hlead⟩ := hd
  obtain ⟨hlt', hleast', hlead'⟩ := hd'
  simp only at hlt hleast hlead hlt' hleast' hlead'
  have hpos : 0 < 2 ^ (e + 1074).toNat := Nat.two_pow_pos _
  have hpos' : 0 < 2 ^ (e' + 1074).toNat := Nat.two_pow_pos _
  -- The sizes agree, whatever the signs are.
  have hsize : m * 2 ^ (e + 1074).toNat = m' * 2 ^ (e' + 1074).toNat := by
    have habs := congrArg Int.natAbs h
    simp only [units] at habs
    cases s <;> cases s' <;> simpa [Int.natAbs_mul, Int.natAbs_pow] using habs
  obtain ⟨rfl, hexponent⟩ :=
    layout_eq_of_size_eq hlt hlt' (by omega) (by omega) hsize
  obtain rfl : e = e' := by omega
  by_cases hzero : m = 0
  · exact .inr ⟨hzero, hzero⟩
  · -- Of two opposite signs only zero has both.
    have hsizePos : 0 < m * 2 ^ (e + 1074).toNat := Nat.mul_pos (by omega) hpos
    have hsizeInt : (0 : Int) < m * 2 ^ (e + 1074).toNat := by exact_mod_cast hsizePos
    left
    simp only [units] at h
    cases s <;> cases s' <;> simp at h ⊢ <;> omega

/-! ### Numbers and their bits -/

/-- Whether a sign is negative. -/
def isNegative : Sign → Bool
  | .negative => true
  | .positive => false

/-- The exact value of an unpacked number. -/
def ofUnpacked : UnpackedFloat → Exact
  | .infinity s => .infinite (isNegative s)
  | .notANumber => .nan
  | .zero s => .finite ⟨isNegative s, 0, -1074⟩
  | .finite s m e _ => .finite ⟨isNegative s, m, e⟩

/-- The sign of a number is its first bit. -/
theorem isNegative_ofBitVec (v : BitVec 1) :
    isNegative (Sign.ofBitVec v) = decide (v.toNat = 1) := by
  revert v
  decide

/-- The mantissa of 64 bits as a number: the last 52 of them. -/
theorem unpackMantissa_toNat (b : BitVec 64) :
    (UnpackedFloat.unpackMantissa b : BitVec Format.binary64.mantissaBitsWithoutImplicit).toNat =
      b.toNat % 2 ^ 52 := by
  simp [UnpackedFloat.unpackMantissa]

/-- The exponent of 64 bits as a number: the eleven before. -/
theorem unpackExponent_toNat (b : BitVec 64) :
    (UnpackedFloat.unpackExponent b : BitVec Format.binary64.exponentBits).toNat =
      b.toNat / 2 ^ 52 % 2048 := by
  simp [UnpackedFloat.unpackExponent, Nat.shiftRight_eq_div_pow]

/-- The sign of 64 bits as a number: the first one. -/
theorem unpackSign_toNat (b : BitVec 64) :
    (@UnpackedFloat.unpackSign Format.binary64 b).toNat = b.toNat / 2 ^ 63 % 2 := by
  change (BitVec.extractLsb' 63 1 b).toNat = _
  rw [BitVec.extractLsb'_toNat, Nat.shiftRight_eq_div_pow]

/-- The leading bit of a mantissa that is not written counts `2^52`. -/
theorem one_append_toNat (m : BitVec 52) : (1#1 ++ m).toNat = m.toNat + 2 ^ 52 := by
  have hm : m.toNat < 2 ^ 52 := m.isLt
  rw [BitVec.toNat_append, ← Nat.shiftLeft_add_eq_or_of_lt hm, Nat.shiftLeft_eq, BitVec.toNat_ofNat]
  omega

/-- The exact value of unpacked bits, by the tests on their fields. -/
theorem ofUnpacked_unpack (b : BitVec 64) :
    ofUnpacked (UnpackedFloat.unpack Format.binary64 b) =
      let mantissa : BitVec 52 := @UnpackedFloat.unpackMantissa Format.binary64 b
      let exponent : BitVec 11 := @UnpackedFloat.unpackExponent Format.binary64 b
      let negative := isNegative (Sign.ofBitVec (@UnpackedFloat.unpackSign Format.binary64 b))
      if exponent = -1#11 then if mantissa = 0#52 then .infinite negative else .nan
      else if exponent = 0#11 then
        if mantissa = 0#52 then .finite ⟨negative, 0, -1074⟩
        else .finite ⟨negative, mantissa.toNat, exponent.toNat - 1075 + 1⟩
      else .finite ⟨negative, (1#1 ++ mantissa).toNat, exponent.toNat - 1075⟩ := by
  unfold UnpackedFloat.unpack
  dsimp only
  by_cases hfull : @UnpackedFloat.unpackExponent Format.binary64 b = -1#11
  · rw [if_pos hfull, if_pos hfull]
    by_cases hzero : @UnpackedFloat.unpackMantissa Format.binary64 b = 0#52
    · rw [if_pos hzero, if_pos hzero]
      rfl
    · rw [if_neg hzero, if_neg hzero]
      rfl
  · rw [if_neg hfull, if_neg hfull]
    by_cases hempty : @UnpackedFloat.unpackExponent Format.binary64 b = 0#11
    · rw [if_pos hempty, if_pos hempty]
      by_cases hzero : @UnpackedFloat.unpackMantissa Format.binary64 b = 0#52
      · rw [dif_pos hzero, if_pos hzero]
        rfl
      · rw [dif_neg hzero, if_neg hzero]
        rfl
    · rw [if_neg hempty, if_neg hempty]
      rfl

/-- The exact value of unpacked bits is that of the bits. -/
theorem ofUnpacked_unpack_eq (b : BitVec 64) :
    ofUnpacked (UnpackedFloat.unpack Format.binary64 b) = ofBits b.toNat := by
  rw [ofUnpacked_unpack]
  have hlt : b.toNat < 2 ^ 64 := b.isLt
  have hmantissa := unpackMantissa_toNat b
  have hexponent := unpackExponent_toNat b
  -- The tests on the fields, as tests on their numbers.
  have hsign : isNegative (Sign.ofBitVec (@UnpackedFloat.unpackSign Format.binary64 b)) =
      decide (2 ^ 63 ≤ b.toNat) := by
    rw [isNegative_ofBitVec, unpackSign_toNat]
    exact decide_eq_decide.mpr (by omega)
  have hfull : @UnpackedFloat.unpackExponent Format.binary64 b = -1#11 ↔
      b.toNat / 2 ^ 52 % 2048 = 2047 := by
    rw [← BitVec.toNat_inj, hexponent]
    rfl
  have hempty : @UnpackedFloat.unpackExponent Format.binary64 b = 0#11 ↔
      b.toNat / 2 ^ 52 % 2048 = 0 := by
    rw [← BitVec.toNat_inj, hexponent]
    rfl
  have hzero : @UnpackedFloat.unpackMantissa Format.binary64 b = 0#52 ↔
      b.toNat % 2 ^ 52 = 0 := by
    rw [← BitVec.toNat_inj, hmantissa]
    rfl
  unfold ofBits
  simp only [Nat.pow_eq, hfull, hempty, hzero, hexponent, hsign, hmantissa, one_append_toNat]
  split_ifs with h1 h2 h3 h4
  · rfl
  · rfl
  · rw [h4]
  · rw [h3]
    rfl
  · rfl

/-- The exact value of a number is that of its unpacked form. -/
theorem exact_eq (x : Float) : exact x = ofUnpacked x.toModel.unpack :=
  (ofUnpacked_unpack_eq x.toModel.toBits.toBitVec).symm

/-- Finite numbers compare by their sign, then by their layout. -/
theorem finite_beq_iff {s t : Sign} {m m' : Nat} {e e' : Int} (h : 0 < m) (h' : 0 < m') :
    UnpackedFloat.beq (.finite s m e h) (.finite t m' e' h') = true ↔ s = t ∧ m = m' ∧ e = e' := by
  have hlayout : (compare e e').then (compare m m') = .eq ↔ m = m' ∧ e = e' := by
    rw [Ordering.then_eq_eq, Int.compare_eq_eq, Nat.compare_eq_eq, and_comm]
  cases s with
  | positive =>
    cases t with
    | positive =>
      change (some ((compare e e').then (compare m m')) == some .eq) = true ↔ _
      simp only [beq_iff_eq, Option.some_inj, hlayout, true_and]
    | negative => exact iff_of_false Bool.false_ne_true (by rintro ⟨⟨⟩, -⟩)
  | negative =>
    cases t with
    | positive => exact iff_of_false Bool.false_ne_true (by rintro ⟨⟨⟩, -⟩)
    | negative =>
      change (some ((compare e e').then (compare m m')).swap == some .eq) = true ↔ _
      simp only [beq_iff_eq, Option.some_inj, Ordering.swap_eq_eq, hlayout, true_and]

/-- Unpacked numbers are equal when they are both zero, or the same infinite or finite number. -/
theorem unpacked_beq_iff (u v : UnpackedFloat) :
    u.beq v = true ↔ (∃ s t, u = .zero s ∧ v = .zero t) ∨ (∃ s, u = .infinity s ∧ v = .infinity s) ∨
      ∃ s m e h, u = .finite s m e h ∧ v = .finite s m e h := by
  constructor
  · intro h
    cases u with
    | notANumber => cases h
    | zero s =>
      cases v with
      | zero t => exact .inl ⟨s, t, rfl, rfl⟩
      | finite t m e pos => cases t <;> cases h
      | infinity t => cases t <;> cases h
      | notANumber => cases h
    | infinity s =>
      cases v with
      | infinity t => cases s <;> cases t <;> cases h <;> exact .inr (.inl ⟨_, rfl, rfl⟩)
      | _ => cases s <;> cases h
    | finite s m e pos =>
      cases v with
      | zero t => cases s <;> cases h
      | infinity t => cases t <;> cases h
      | notANumber => cases h
      | finite t m' e' pos' =>
        obtain ⟨rfl, rfl, rfl⟩ := (finite_beq_iff pos pos').mp h
        exact .inr (.inr ⟨s, m, e, pos, rfl, rfl⟩)
  · rintro (⟨s, t, rfl, rfl⟩ | ⟨s, rfl, rfl⟩ | ⟨s, m, e, pos, rfl, rfl⟩)
    · rfl
    · cases s <;> rfl
    · exact (finite_beq_iff pos pos).mpr ⟨rfl, rfl, rfl⟩

/-- A sign is known by whether it is negative. -/
theorem isNegative_inj {s t : Sign} (h : isNegative s = isNegative t) : s = t := by
  cases s <;> cases t <;> cases h <;> rfl

/-- What a finite exact value is unpacked to. -/
theorem of_ofUnpacked_eq_finite {u : UnpackedFloat} {d : Dyadic} (h : ofUnpacked u = .finite d) :
    (∃ s, u = .zero s ∧ d.mantissa = 0) ∨
      ∃ s pos, u = .finite s d.mantissa d.exponent pos ∧ isNegative s = d.negative := by
  cases u with
  | notANumber => cases h
  | infinity s => cases h
  | zero s =>
    obtain rfl := Exact.finite.inj h
    exact .inl ⟨s, rfl, rfl⟩
  | finite s m e pos =>
    obtain rfl := Exact.finite.inj h
    exact .inr ⟨s, pos, rfl, rfl⟩

/-- What an infinite exact value is unpacked to. -/
theorem of_ofUnpacked_eq_infinite {u : UnpackedFloat} {negative : Bool}
    (h : ofUnpacked u = .infinite negative) : ∃ s, u = .infinity s ∧ isNegative s = negative := by
  cases u with
  | infinity s => exact ⟨s, rfl, Exact.infinite.inj h⟩
  | _ => cases h

/-- Two numbers are equal when they are the same multiple of the least one, or infinite on the same
side. -/
theorem beq_iff (x y : Float) :
    (x == y) = true ↔
      (∃ d d', exact x = .finite d ∧ exact y = .finite d' ∧ d.units = d'.units) ∨
        ∃ negative, exact x = .infinite negative ∧ exact y = .infinite negative := by
  change x.toModel.unpack.beq y.toModel.unpack = true ↔ _
  rw [unpacked_beq_iff]
  have hx := exact_eq x
  have hy := exact_eq y
  generalize x.toModel.unpack = u at hx ⊢
  generalize y.toModel.unpack = v at hy ⊢
  constructor
  · rintro (⟨s, t, rfl, rfl⟩ | ⟨s, rfl, rfl⟩ | ⟨s, m, e, h, rfl, rfl⟩)
    · exact .inl ⟨_, _, hx, hy, by simp [Dyadic.units]⟩
    · exact .inr ⟨_, hx, hy⟩
    · exact .inl ⟨_, _, hx, hy, rfl⟩
  · rintro (⟨d, d', hd, hd', hunits⟩ | ⟨negative, hinfinite, hinfinite'⟩)
    · -- Both are laid out normally, so one layout is the other unless both are zero.
      have hnormal : d.Normal := normal_of_ofBits hd
      have hnormal' : d'.Normal := normal_of_ofBits hd'
      have hlayout := hnormal.eq_of_units hnormal' hunits
      obtain ⟨s, rfl, hzero⟩ | ⟨s, hpos, rfl, hs⟩ := of_ofUnpacked_eq_finite (hx ▸ hd) <;>
        obtain ⟨t, rfl, hzero'⟩ | ⟨t, hpos', rfl, ht⟩ := of_ofUnpacked_eq_finite (hy ▸ hd')
      · exact .inl ⟨s, t, rfl, rfl⟩
      · obtain rfl | ⟨-, hmantissa⟩ := hlayout <;> omega
      · obtain rfl | ⟨hmantissa, -⟩ := hlayout <;> omega
      · obtain rfl | ⟨hmantissa, -⟩ := hlayout
        · obtain rfl := isNegative_inj (hs.trans ht.symm)
          exact .inr (.inr ⟨s, _, _, hpos, rfl, rfl⟩)
        · omega
    · obtain ⟨s, rfl, hs⟩ := of_ofUnpacked_eq_infinite (hx ▸ hinfinite)
      obtain ⟨t, rfl, ht⟩ := of_ofUnpacked_eq_infinite (hy ▸ hinfinite')
      obtain rfl := isNegative_inj (hs.trans ht.symm)
      exact .inr (.inl ⟨s, rfl, rfl⟩)

/-- The fraction of a finite number, in units of the least one. -/
theorem Dyadic.Normal.units_mul {d : Dyadic} (hd : d.Normal) :
    d.units * d.denominator =
      (if d.negative then -(d.numerator : Int) else d.numerator) * unitsOfOne := by
  have hleast := hd.least
  -- The exponent counts from the least one; above zero it stands in the numerator.
  have hpow : (2 : Int) ^ (d.exponent + 1074).toNat * 2 ^ (-d.exponent).toNat =
      2 ^ d.exponent.toNat * unitsOfOne := by
    rw [unitsOfOne, ← pow_add, ← pow_add]
    congr 1
    omega
  simp only [units, denominator, numerator, Nat.pow_eq]
  push_cast
  cases d.negative <;> simp only [Bool.false_eq_true, if_false, if_true]
  · linear_combination (d.mantissa : Int) * hpow
  · linear_combination -(d.mantissa : Int) * hpow

/-- A number equals a whole number when it is that many units of one. -/
theorem compareInt_eq_iff (x : Float) (n : Int) :
    compareInt x n = some .eq ↔ ∃ d, exact x = .finite d ∧ d.units = n * unitsOfOne := by
  unfold compareInt
  cases hx : exact x with
  | nan => simp
  | infinite negative => cases negative <;> simp
  | finite d =>
    have hnormal : d.Normal := normal_of_ofBits hx
    have hunits := hnormal.units_mul
    have hden : (d.denominator : Int) ≠ 0 := by simp [Dyadic.denominator]
    have hone := unitsOfOne_ne_zero
    simp only [Exact.finite.injEq, exists_eq_left', Option.some.injEq, Std.compare_eq_iff_eq]
    constructor
    · intro h
      rw [h] at hunits
      apply mul_right_cancel₀ hden
      rw [hunits]
      ring
    · intro h
      rw [h] at hunits
      apply mul_right_cancel₀ hone
      rw [← hunits]
      ring

end Number

open Number (exact unitsOfOne unitsOfOne_ne_zero)

/-- What an atom is worth in a comparison. -/
inductive Worth where
  | null
  | text (s : String)
  | date (year month day : Nat)
  /-- The instant of a time, which is in a zone or in none. -/
  | instant (zoned : Bool) (micros : Int)
  /-- A number in units of the least positive one. -/
  | units (n : Int)
  | infinite (negative : Bool)

/-- The worth of an exact value; not-a-number has none. -/
def Number.Exact.worth? : Number.Exact → Option Worth
  | .finite d => some (.units d.units)
  | .infinite negative => some (.infinite negative)
  | .nan => none

namespace Atom

/-- The worth of an atom. -/
def worth? : Atom → Option Worth
  | .null => some .null
  | .text s => some (.text s)
  | .date y m d => some (.date y m d)
  | .moment y m d c => some (.instant c.zone.isSome (c.instant y m d))
  | .bool b => some (.units ((if b then 1 else 0) * unitsOfOne))
  | .int n => some (.units (n * unitsOfOne))
  | .float x => (exact x).worth?

/-- Whole numbers and truth values are equal when they have the same worth. -/
theorem whole_eq_iff_worth? {a b : Atom} {m n : Int}
    (ha : a.worth? = some (.units (m * unitsOfOne)))
    (hb : b.worth? = some (.units (n * unitsOfOne))) :
    m = n ↔ ∃ w, a.worth? = some w ∧ b.worth? = some w := by
  have hcancel : m * unitsOfOne = n * unitsOfOne ↔ m = n := mul_left_inj' unitsOfOne_ne_zero
  rw [ha, hb, ← hcancel]
  constructor
  · intro h
    exact ⟨_, rfl, by rw [h]⟩
  · rintro ⟨w, hw, hw'⟩
    exact Worth.units.inj (Option.some.inj (hw.trans hw'.symm))

/-- A floating-point number equals a whole number of the same worth. -/
theorem compareInt_eq_iff_worth? {x : Float} {n : Int} :
    Number.compareInt x n = some .eq ↔ (exact x).worth? = some (.units (n * unitsOfOne)) := by
  rw [Number.compareInt_eq_iff]
  cases exact x <;> simp [Number.Exact.worth?]

/-- Floating-point numbers are equal when they have the same worth. -/
theorem beq_iff_worth? {x y : Float} :
    (x == y) = true ↔ ∃ w, (exact x).worth? = some w ∧ (exact y).worth? = some w := by
  rw [Number.beq_iff]
  cases exact x <;> cases exact y <;> simp [Number.Exact.worth?, eq_comm]

/-- A floating-point number is worth no more than a number. -/
theorem worth?_number {e : Number.Exact} {w : Worth} (h : e.worth? = some w) :
    (∃ n, w = .units n) ∨ ∃ negative, w = .infinite negative := by
  cases e with
  | finite d => exact .inl ⟨d.units, (Option.some.inj h).symm⟩
  | infinite negative => exact .inr ⟨negative, (Option.some.inj h).symm⟩
  | nan => cases h

/-- Equal atoms are those of equal worth. -/
theorem same_iff {a b : Atom} : a.same b = true ↔ ∃ w, a.worth? = some w ∧ b.worth? = some w := by
  -- No floating-point number is worth nothing, a text, a day or an instant.
  have hother (x : Float) (w : Worth) (hw : ∀ n, w ≠ .units n) (hw' : ∀ c, w ≠ .infinite c) :
      (exact x).worth? ≠ some w := by
    intro h
    obtain ⟨n, rfl⟩ | ⟨c, rfl⟩ := worth?_number h
    · exact hw n rfl
    · exact hw' c rfl
  cases a with
  | float x =>
    cases b with
    | float y => exact beq_iff_worth?
    | int n => simp [same, whole?, compareInt_eq_iff_worth?, worth?]
    | bool c => simp [same, whole?, compareInt_eq_iff_worth?, worth?]
    | _ => simp [same, whole?, worth?, hother]
  | int m =>
    cases b with
    | int n => exact beq_iff_eq.trans (whole_eq_iff_worth? rfl rfl)
    | bool c => exact beq_iff_eq.trans (whole_eq_iff_worth? rfl rfl)
    | float y => simp [same, whole?, compareInt_eq_iff_worth?, worth?]
    | _ => simp [same, whole?, worth?]
  | bool c =>
    cases b with
    | int n => exact beq_iff_eq.trans (whole_eq_iff_worth? rfl rfl)
    | bool c => exact beq_iff_eq.trans (whole_eq_iff_worth? rfl rfl)
    | float y => simp [same, whole?, compareInt_eq_iff_worth?, worth?]
    | _ => simp [same, whole?, worth?]
  | null => cases b <;> simp [same, whole?, worth?, hother]
  | text s => cases b <;> simp [same, whole?, worth?, hother, @eq_comm _ s]
  | date y m d =>
    cases b <;>
      simp [same, whole?, worth?, hother, and_assoc, @eq_comm _ y, @eq_comm _ m, @eq_comm _ d]
  | moment y m d c =>
    cases b with
    | moment y' m' d' c' =>
      simp [same, worth?, @eq_comm _ c.zone.isSome, @eq_comm _ (c.instant y m d)]
    | _ => simp [same, whole?, worth?, hother]

/-- What equals an equal atom is equal. -/
theorem same_trans {a b c : Atom} (hab : a.same b = true) (hbc : b.same c = true) :
    a.same c = true := by
  obtain ⟨w, ha, hb⟩ := same_iff.mp hab
  obtain ⟨w', hb', hc⟩ := same_iff.mp hbc
  obtain rfl : w = w' := Option.some.inj (hb.symm.trans hb')
  exact same_iff.mpr ⟨w, ha, hc⟩

/-- Every name is found under itself. -/
theorem finds_self (a : Atom) : a.finds a = true := by simp [finds]

/-- Names that are found under each other are found under the same keys. -/
theorem finds_trans {a b c : Atom} (hab : a.finds b = true) (hbc : b.finds c = true) :
    a.finds c = true := by
  unfold finds at hab hbc ⊢
  rw [Bool.or_eq_true, decide_eq_true_eq] at hab hbc ⊢
  obtain rfl | hab := hab
  · exact hbc
  · obtain rfl | hbc := hbc
    · exact .inr hab
    · exact .inr (same_trans hab hbc)

end Atom

end RobotProgram
