import RobotProgram.Proofs.Literals
import RobotProgram.Proofs.RoundedSums

/-!
# Arithmetic of floating-point numbers

What is computed with finite numbers, in units of the least positive one (`HasUnits`). Packing keeps
a number unless it is too large (`hasUnits_pack`), so that sums and differences are the exact ones
rounded to 53 significant bits (`HasUnits.add`, `HasUnits.sub`), and never too large when one of the
two numbers is small (`HasUnits.add_small`). The remainder of two magnitudes has no more significant
bits than one of the two, so that only the correction for a negative dividend is rounded
(`HasUnits.floorMod`).
-/

namespace RobotProgram.Number

open Float.Model (Format UnpackedFloat)
open Float.Model.UnpackedFloat (Sign)

/-! ### Packed numbers -/

/-- The finite number of an exponent and a fraction below the full one. -/
theorem ofBits_fields (negative : Bool) {e f : ℕ} (he : e < 2047) (hf : f < 2 ^ 52) :
    ofBits ((if negative then 2 ^ 63 else 0) + e * 2 ^ 52 + f) =
      .finite (if e = 0 then ⟨negative, f, -1074⟩ else ⟨negative, f + 2 ^ 52, (e : ℤ) - 1075⟩) := by
  obtain ⟨b, hb⟩ : ∃ b, (if negative then 2 ^ 63 else 0) + e * 2 ^ 52 + f = b := ⟨_, rfl⟩
  have hexponent : b / 2 ^ 52 % 2048 = e := by cases negative <;> simp at hb <;> omega
  have hfraction : b % 2 ^ 52 = f := by cases negative <;> simp at hb <;> omega
  have hsign : decide (2 ^ 63 ≤ b) = negative := by cases negative <;> simp at hb ⊢ <;> omega
  rw [hb, ofBits]
  simp only [Nat.pow_eq, hexponent, hfraction, hsign]
  rw [if_neg (by omega)]
  split <;> rfl

/-- The bits of a sign, an exponent and a mantissa, as a number. -/
theorem packComponents_toNat (s : Sign) (e : BitVec 11) (m : BitVec 52) :
    (@UnpackedFloat.packComponents Format.binary64 s e m).toNat =
      (if isNegative s then 2 ^ 63 else 0) + e.toNat * 2 ^ 52 + m.toNat := by
  have he : e.toNat < 2 ^ 11 := e.isLt
  have hm : m.toNat < 2 ^ 52 := m.isLt
  change ((s.toBitVec ++ e) ++ m).toNat = _
  rw [BitVec.toNat_append, ← Nat.shiftLeft_add_eq_or_of_lt hm, BitVec.toNat_append,
    ← Nat.shiftLeft_add_eq_or_of_lt he, Nat.shiftLeft_eq, Nat.shiftLeft_eq]
  cases s with
  | negative =>
    simp only [Sign.toBitVec, isNegative, if_true, BitVec.toNat_ofNat]
    omega
  | positive =>
    simp only [Sign.toBitVec, isNegative, Bool.false_eq_true, if_false, BitVec.toNat_ofNat]
    omega

/-- Packing keeps a number that is laid out normally and is not too large. -/
theorem exact_pack {u : UnpackedFloat} {d : Dyadic} (h : ofUnpacked u = .finite d)
    (hnormal : d.Normal) (htop : d.exponent ≤ 971) :
    exact ⟨Float.Model.pack u⟩ = .finite d := by
  change ofBits (UnpackedFloat.pack Format.binary64 u).toNat = _
  cases u with
  | notANumber => cases h
  | infinity s => cases h
  | zero s =>
    obtain rfl := Exact.finite.inj h
    exact (congrArg ofBits (packComponents_toNat s 0 0)).trans
      (ofBits_fields (isNegative s) (by decide) (by decide))
  | finite s m e hpos =>
    obtain rfl := Exact.finite.inj h
    obtain ⟨hlt, hleast, hleading⟩ := hnormal
    simp only at hlt hleast hleading htop
    have hexponent : (e + (Format.binary64.exponentBias : ℤ) +
        Format.binary64.mantissaBitsWithoutImplicit).toNat = (e + 1075).toNat := by
      change (e + 1023 + 52).toNat = _
      omega
    have hlog : m.log2 + 1 = Format.binary64.mantissaBits ↔ 2 ^ 52 ≤ m := by
      change m.log2 + 1 = 53 ↔ _
      have hle := Nat.le_log2 hpos.ne' (k := 52)
      have hupper := (Nat.log2_lt hpos.ne').mpr hlt
      omega
    have hbelow : ¬2 ^ Format.binary64.exponentBits ≤ (e + 1075).toNat + 1 := by
      change ¬2 ^ 11 ≤ _
      omega
    rw [UnpackedFloat.pack.eq_def]
    dsimp only
    rw [hexponent, if_neg hbelow]
    split
    case isTrue hfull =>
      rw [hlog] at hfull
      have hm : m % 2 ^ 52 + 2 ^ 52 = m := by omega
      have he : (e + 1075).toNat % 2 ^ 11 = (e + 1075).toNat := by omega
      refine (congrArg ofBits (packComponents_toNat s _ _)).trans ?_
      rw [BitVec.toNat_ofNat, BitVec.toNat_ofNat, he,
        ofBits_fields (isNegative s) (by omega) (Nat.mod_lt m (by decide)), if_neg (by omega), hm]
      congr 2
      omega
    case isFalse hshort =>
      rw [hlog] at hshort
      obtain rfl : e = -1074 := by omega
      have hm : m % 2 ^ 52 = m := by omega
      refine (congrArg ofBits (packComponents_toNat s _ _)).trans ?_
      rw [BitVec.toNat_ofNat, BitVec.toNat_ofNat, hm]
      exact ofBits_fields (isNegative s) (by decide) (by omega)

/-- The exponent of a finite number has a bound. -/
theorem exponent_le_of_ofBits {bits : ℕ} {d : Dyadic} (h : ofBits bits = .finite d) :
    d.exponent ≤ 971 := by
  simp only [ofBits, Nat.pow_eq] at h
  split_ifs at h with hfull hzero hempty
  · obtain rfl := Exact.finite.inj h
    exact (by decide : (-1074 : ℤ) ≤ 971)
  · obtain rfl := Exact.finite.inj h
    simp only
    omega

/-- The bits of a finite number are kept. -/
theorem exact_ofBits {bits : UInt64} {d : Dyadic} (h : ofBits bits.toNat = .finite d) :
    exact (Float.ofBits bits) = .finite d :=
  exact_pack ((ofUnpacked_unpack_eq bits.toBitVec).trans h) (normal_of_ofBits h)
    (exponent_le_of_ofBits h)

/-- A finite number has only one form in bits. -/
theorem bits_eq_of_ofBits {b b' : ℕ} {d : Dyadic} (hb : b < 2 ^ 64) (hb' : b' < 2 ^ 64)
    (h : ofBits b = .finite d) (h' : ofBits b' = .finite d) : b = b' := by
  have hfields {b : ℕ} (hb : b < 2 ^ 64) (h : ofBits b = .finite d) :
      b = (if d.negative then 2 ^ 63 else 0) +
        (if 2 ^ 52 ≤ d.mantissa then (d.exponent + 1075).toNat * 2 ^ 52 + d.mantissa - 2 ^ 52
          else d.mantissa) := by
    simp only [ofBits, Nat.pow_eq] at h
    split_ifs at h with hfull hzero hempty <;> obtain rfl := Exact.finite.inj h
    · simp only [decide_eq_true_eq]
      split_ifs <;> omega
    · simp only [decide_eq_true_eq]
      split_ifs <;> omega
  rw [hfields hb h, hfields hb' h']

/-! ### Units of floating-point numbers -/

/-- The units of the numbers that are too large, and of those above. -/
@[irreducible]
def unitsOfTop : ℤ := 2 ^ 2098

/-- The first number that is too large has 53 bits more than the last place of the largest ones. -/
theorem unitsOfTop_eq : unitsOfTop = 2 ^ (53 + 2045) := by rw [unitsOfTop]

/-- One is a positive number of units. -/
theorem unitsOfOne_pos : 0 < unitsOfOne := by
  rw [unitsOfOne]
  positivity

/-- A whole number of 53 bits is a size that a float has. -/
theorem fits_mul_unitsOfOne {m : ℤ} (h : |m| ≤ 2 ^ 53) : Fits (m * unitsOfOne) := by
  rw [unitsOfOne]
  exact fits_mul_two_pow h 1074

/-- A floating-point number is finite, and so many units of the least positive one. -/
def HasUnits (x : Float) (n : ℤ) : Prop := ∃ d, exact x = .finite d ∧ d.units = n

/-- The units of a number are its size with its sign. -/
theorem units_eq (d : Dyadic) : d.units = if d.negative then -d.size else d.size := rfl

/-- The units of a number, from its rational value. -/
theorem units_eq_value_mul {d : Dyadic} (hd : d.Normal) : (d.units : ℚ) = d.value * unitsOfOne := by
  have hden : (d.denominator : ℚ) ≠ 0 := by exact_mod_cast d.denominator_pos.ne'
  have hunits := congrArg (Int.cast : ℤ → ℚ) hd.units_mul
  push_cast at hunits
  apply mul_right_cancel₀ hden
  rw [hunits, d.value_eq]
  split <;> field_simp

/-- The size of a number is not negative. -/
theorem size_nonneg (d : Dyadic) : 0 ≤ d.size := by
  rw [Dyadic.size]
  positivity

/-- The size of a number is that of its units. -/
theorem abs_units (d : Dyadic) : |d.units| = d.size := by
  rw [units_eq]
  split
  · rw [abs_neg, abs_of_nonneg (size_nonneg d)]
  · exact abs_of_nonneg (size_nonneg d)

/-- A number with positive units is positive. -/
theorem of_units_pos {d : Dyadic} (h : 0 < d.units) : d.negative = false ∧ 0 < d.mantissa := by
  have hsize := size_nonneg d
  rw [units_eq] at h
  split at h
  · omega
  · refine ⟨Bool.eq_false_of_not_eq_true ‹_›, Nat.pos_of_ne_zero fun hzero => ?_⟩
    simp [Dyadic.size, hzero] at h

section

variable {x y : Float} {a b n : ℤ}

/-- A float is finite exactly when it has units. -/
theorem isFinite_iff_hasUnits : x.isFinite = true ↔ ∃ n, HasUnits x n := by
  rw [isFinite_iff]
  exact ⟨fun ⟨d, hd⟩ => ⟨d.units, d, hd, rfl⟩, fun ⟨_, d, hd, _⟩ => ⟨d, hd⟩⟩

/-- The units of a float measure its bits. -/
theorem HasUnits.measures (hx : HasUnits x a) : Measures x.toModel.unpack a := by
  obtain ⟨d, hd, rfl⟩ := hx
  exact ⟨d, exact_eq x ▸ hd, normal_of_ofBits hd, rfl⟩

/-- The units of a float fit into one. -/
theorem HasUnits.fits (hx : HasUnits x a) : Fits a := hx.measures.fits

/-- The units of a float are not too large. -/
theorem HasUnits.abs_lt (hx : HasUnits x a) : |a| < unitsOfTop := by
  obtain ⟨d, hd, rfl⟩ := hx
  have hlt := (normal_of_ofBits hd).lt
  have hexponent := exponent_le_of_ofBits hd
  rw [abs_units, Dyadic.size, unitsOfTop_eq, pow_add]
  refine mul_lt_mul (by exact_mod_cast hlt) ?_ (by positivity) (by positivity)
  exact pow_le_pow_right₀ (by norm_num) (by omega)

/-- A number that is not too large is packed. -/
theorem hasUnits_pack {u : UnpackedFloat} (hu : Measures u a) (htop : |a| < unitsOfTop) :
    HasUnits ⟨Float.Model.pack u⟩ a := by
  obtain ⟨d, hd, hnormal, rfl⟩ := hu
  refine ⟨d, exact_pack hd hnormal ?_, rfl⟩
  by_contra hlarge
  have hleading : 2 ^ 52 ≤ d.mantissa := hnormal.leading.resolve_right (by omega)
  rw [abs_units, Dyadic.size, unitsOfTop_eq, show 53 + 2045 = 52 + 2046 by rfl, pow_add] at htop
  refine htop.not_ge (mul_le_mul (by exact_mod_cast hleading) ?_ (by positivity) (by positivity))
  exact pow_le_pow_right₀ (by norm_num) (by omega)

/-- The opposite of a float has the opposite units. -/
theorem HasUnits.neg (hx : HasUnits x a) : HasUnits (-x) (-a) :=
  hasUnits_pack hx.measures.neg (by rw [abs_neg]; exact hx.abs_lt)

/-- The size of a float has the size of its units. -/
theorem HasUnits.abs (hx : HasUnits x a) : HasUnits x.abs |a| :=
  hasUnits_pack hx.measures.abs (by rw [abs_abs]; exact hx.abs_lt)

/-- A sum is the exact sum rounded, unless it is too large. -/
theorem HasUnits.add (hx : HasUnits x a) (hy : HasUnits y b)
    (htop : |rounded (a + b)| < unitsOfTop) : HasUnits (x + y) (rounded (a + b)) :=
  hasUnits_pack (hx.measures.add hy.measures) htop

/-- A difference of floats has the rounded difference of their units. -/
theorem HasUnits.sub (hx : HasUnits x a) (hy : HasUnits y b)
    (htop : |rounded (a - b)| < unitsOfTop) : HasUnits (x - y) (rounded (a - b)) :=
  hasUnits_pack (hx.measures.sub hy.measures) htop

-- A number that is far below the last place of the largest ones.
section Small

variable (hb : |b| ≤ 2 ^ 14 * unitsOfOne)
include hb

/-- A sum with a small float is not too large. -/
theorem HasUnits.abs_rounded_add_lt (hx : HasUnits x a) : |rounded (a + b)| < unitsOfTop := by
  have hsmall : 2 * |b| < 2 ^ 2045 :=
    calc 2 * |b| ≤ 2 * (2 ^ 14 * unitsOfOne) := by omega
      _ = 2 ^ (14 + 1074 + 1) := by rw [unitsOfOne, ← pow_add, ← pow_succ']
      _ < 2 ^ 2045 := pow_lt_pow_right₀ (by norm_num) (by norm_num)
  have htop := hx.abs_lt
  rw [unitsOfTop_eq] at htop ⊢
  exact Number.abs_rounded_add_lt hx.fits htop hsmall

/-- A sum with a small float has the rounded sum of the units. -/
theorem HasUnits.add_small (hx : HasUnits x a) (hy : HasUnits y b) :
    HasUnits (x + y) (rounded (a + b)) :=
  hx.add hy (hx.abs_rounded_add_lt hb)

/-- A difference with a small float has the rounded difference of the units. -/
theorem HasUnits.sub_small (hx : HasUnits x a) (hy : HasUnits y b) :
    HasUnits (x - y) (rounded (a - b)) :=
  hx.sub hy (hx.abs_rounded_add_lt (b := -b) (by rwa [abs_neg]))

/-- So has the difference the other way round. -/
theorem HasUnits.small_sub (hy : HasUnits y b) (hx : HasUnits x a) :
    HasUnits (y - x) (rounded (b - a)) := by
  have hbound := hx.neg.abs_rounded_add_lt hb
  rw [neg_add_eq_sub] at hbound
  exact hy.sub hx hbound

end Small

/-- The height of a finite float is given by its units. -/
theorem HasUnits.height_eq (hx : HasUnits x a) : height x = some (toLex (0, a)) := by
  obtain ⟨d, hd, rfl⟩ := hx
  rw [height, hd]
  rfl

/-- Finite floats have the order of their units. -/
theorem HasUnits.lt_iff (hx : HasUnits x a) (hy : HasUnits y b) : x < y ↔ a < b := by
  rw [lt_iff_height hx.height_eq hy.height_eq, Prod.Lex.toLex_lt_toLex]
  simp

/-- Finite floats have the weak order of their units. -/
theorem HasUnits.le_iff (hx : HasUnits x a) (hy : HasUnits y b) : x ≤ y ↔ a ≤ b := by
  rw [le_iff_height hx.height_eq hy.height_eq, Prod.Lex.toLex_le_toLex]
  simp

/-- Finite floats are equal exactly when their units are. -/
theorem HasUnits.beq_iff (hx : HasUnits x a) (hy : HasUnits y b) : (x == y) = true ↔ a = b := by
  rw [beq_iff_height hx.height_eq hy.height_eq]
  simp

/-- A float has only one number of units. -/
theorem HasUnits.unique (hx : HasUnits x a) (hx' : HasUnits x b) : a = b := by
  obtain ⟨d, hd, rfl⟩ := hx
  obtain ⟨d', hd', rfl⟩ := hx'
  rw [Exact.finite.inj (hd.symm.trans hd')]

/-- But for the two zeros a number is known from its units. -/
theorem HasUnits.eq (hx : HasUnits x n) (hy : HasUnits y n) (hn : n ≠ 0) : x = y := by
  obtain ⟨d, hd, rfl⟩ := hx
  obtain ⟨d', hd', hunits⟩ := hy
  obtain rfl | ⟨hzero, -⟩ := (normal_of_ofBits hd).eq_of_units (normal_of_ofBits hd') hunits.symm
  · have hbits : x.toBits = y.toBits :=
      UInt64.toNat_inj.mp (bits_eq_of_ofBits x.toBits.toNat_lt y.toBits.toNat_lt hd hd')
    obtain ⟨⟨bits, hvalid⟩⟩ := x
    obtain ⟨⟨bits', hvalid'⟩⟩ := y
    obtain rfl : bits = bits' := hbits
    rfl
  · exact absurd (by simp [Dyadic.units, hzero]) hn

end

/-- The units of a whole number, from its layout. -/
theorem hasUnits_whole {x : Float} {m k : ℕ} (hk : k ≤ 1074)
    (h : exact x = .finite ⟨false, m * 2 ^ k, -(k : ℤ)⟩) : HasUnits x (m * unitsOfOne) := by
  refine ⟨_, h, ?_⟩
  have hplace : (-(k : ℤ) + 1074).toNat = 1074 - k := by omega
  simp only [Dyadic.units, Bool.false_eq_true, if_false, hplace]
  push_cast
  rw [unitsOfOne, mul_assoc, ← pow_add, Nat.add_sub_cancel' hk]

/-! ### Remainders -/

/-- Zero has no units. -/
theorem hasUnits_zero : HasUnits 0.0 0 := ⟨⟨false, 0, -1074⟩, by decide, by simp [Dyadic.units]⟩

/-- Left shifts. -/
theorem shift_natCast (m k : ℕ) : shift m k = m * 2 ^ k := by
  rw [shift, if_pos (Int.natCast_nonneg k), Int.toNat_natCast, Nat.pow_eq]

/-- The units of a positive float, from the exponent and the fraction in its bits. -/
theorem hasUnits_ofBits {e f : ℕ} (he : e < 2047) (hf : f < 2 ^ 52) :
    HasUnits (Float.ofBits (e * 2 ^ 52 + f).toUInt64)
      (if e = 0 then (f : ℤ) else (f + 2 ^ 52 : ℕ) * 2 ^ (e - 1)) := by
  have hbits : (e * 2 ^ 52 + f).toUInt64.toNat =
      (if false then 2 ^ 63 else 0) + e * 2 ^ 52 + f := by
    rw [Nat.toUInt64_eq, UInt64.toNat_ofNat', if_neg Bool.false_ne_true]
    omega
  have hfinite := ofBits_fields false he hf
  rw [← hbits] at hfinite
  refine ⟨_, exact_ofBits hfinite, ?_⟩
  split
  · simp [Dyadic.units]
  · have hplace : ((e : ℤ) - 1075 + 1074).toNat = e - 1 := by omega
    simp [Dyadic.units, hplace]

/-- A significand with its leading bit in the first of 53 places. -/
theorem significand_mem {m k : ℕ} (hlow : 2 ^ k ≤ m) (hhigh : m < 2 ^ (k + 1)) (hk : k ≤ 52) :
    2 ^ 52 ≤ m * 2 ^ (52 - k) ∧ m * 2 ^ (52 - k) < 2 ^ 53 := by
  constructor
  · calc 2 ^ 52 = 2 ^ k * 2 ^ (52 - k) := by rw [← pow_add, Nat.add_sub_cancel' hk]
      _ ≤ m * 2 ^ (52 - k) := Nat.mul_le_mul_right _ hlow
  · calc m * 2 ^ (52 - k) < 2 ^ (k + 1) * 2 ^ (52 - k) :=
          Nat.mul_lt_mul_of_pos_right hhigh (Nat.two_pow_pos _)
      _ = 2 * 2 ^ 52 := by rw [pow_succ', mul_assoc, ← pow_add, Nat.add_sub_cancel' hk]

/-- A number with all places below those of the fraction is written as it is. -/
theorem hasUnits_ofDyadic_short {m p : ℕ} (hm : m ≠ 0) (h : m.log2 + p < 52) :
    HasUnits (ofDyadic m ((p : ℤ) - 1074)) (m * 2 ^ p : ℕ) := by
  have hlt : m * 2 ^ p < 2 ^ 52 := by
    rw [← Nat.log2_lt (by positivity), log2_mul_two_pow hm]
    exact h
  have hbits : shift m ((p : ℤ) - 1074 + 1074) = 0 * 2 ^ 52 + m * 2 ^ p := by
    rw [sub_add_cancel, shift_natCast, zero_mul, zero_add]
  have hunits := hasUnits_ofBits (e := 0) (by decide) hlt
  rw [if_pos rfl] at hunits
  simp only [ofDyadic, if_neg hm, if_pos (by omega : (m.log2 : ℤ) + (p - 1074) < -1022), hbits]
  exact hunits

/-- Any other number is written with its leading bit in the first place. -/
theorem hasUnits_ofDyadic_long {m p : ℕ} (hm : m ≠ 0) (hshort : m.log2 ≤ 52)
    (h : 52 ≤ m.log2 + p) (htop : m.log2 + p < 2098) :
    HasUnits (ofDyadic m ((p : ℤ) - 1074)) (m * 2 ^ p : ℕ) := by
  have hlow := Nat.log2_self_le hm
  have hhigh := Nat.lt_log2_self (n := m)
  simp only [ofDyadic, if_neg hm, if_neg (by omega : ¬(m.log2 : ℤ) + (p - 1074) < -1022)]
  generalize m.log2 = k at *
  obtain ⟨hleading, hlt⟩ := significand_mem hlow hhigh hshort
  have hfraction : shift m (52 - k) = m * 2 ^ (52 - k) := by
    rw [← shift_natCast]
    congr 1
    omega
  have hexponent : ((k : ℤ) + (p - 1074) + 1023).toNat = k + p - 51 := by omega
  have hsame : m * 2 ^ (52 - k) * 2 ^ (k + p - 51 - 1) = m * 2 ^ p := by
    rw [mul_assoc, ← pow_add]
    congr 2
    omega
  have hunits := hasUnits_ofBits (e := k + p - 51) (f := m * 2 ^ (52 - k) - 2 ^ 52)
    (by omega) (by omega)
  rw [if_neg (by omega), Nat.sub_add_cancel hleading] at hunits
  rw [hfraction, hexponent, Nat.pow_eq, ← hsame]
  exact_mod_cast hunits

/-- A significand of 53 bits needs no rounding. -/
theorem hasUnits_ofDyadic {m p : ℕ} (hm : m < 2 ^ 53) (htop : (m * 2 ^ p : ℕ) < unitsOfTop) :
    HasUnits (ofDyadic m ((p : ℤ) - 1074)) (m * 2 ^ p : ℕ) := by
  obtain rfl | hne := eq_or_ne m 0
  · simpa [ofDyadic] using hasUnits_zero
  obtain hsmall | hlarge := lt_or_ge (m.log2 + p) 52
  · exact hasUnits_ofDyadic_short hne hsmall
  · have hbits : m.log2 < 53 := (Nat.log2_lt hne).mpr hm
    refine hasUnits_ofDyadic_long hne (by omega) hlarge ?_
    rw [← log2_mul_two_pow hne, Nat.log2_lt (by positivity)]
    rw [unitsOfTop] at htop
    exact_mod_cast htop

/-- A magnitude in a lower place. -/
theorem size_eq_shift {d : Dyadic} {r : ℕ} (hr : (r : ℤ) - 1074 ≤ d.exponent) :
    d.size = (shift d.mantissa (d.exponent - (r - 1074)) * 2 ^ r : ℕ) := by
  obtain ⟨k, hk⟩ : ∃ k : ℕ, d.exponent - (r - 1074) = k :=
    ⟨(d.exponent - (r - 1074)).toNat, by omega⟩
  have hplaces : (d.exponent + 1074).toNat = k + r := by omega
  rw [Dyadic.size, hplaces, hk, shift_natCast, pow_add]
  push_cast
  ring

/-- The remainder of the magnitudes is exact. -/
theorem hasUnits_remainder {a b : Dyadic} (ha : a.Normal) (hb : b.Normal) (hpos : 0 < b.mantissa)
    (htop : b.size < unitsOfTop) : HasUnits (remainder a b) (a.size % b.size) := by
  obtain ⟨r, hr⟩ : ∃ r : ℕ, min a.exponent b.exponent = r - 1074 := by
    have hleast := ha.least
    have hleast' := hb.least
    exact ⟨(min a.exponent b.exponent + 1074).toNat, by omega⟩
  have hdividend := size_eq_shift (d := a) (r := r) (by omega)
  have hdivisor := size_eq_shift (d := b) (r := r) (by omega)
  -- At the lower of the two places one of the significands is not shifted.
  have hshort : shift a.mantissa (a.exponent - (r - 1074)) < 2 ^ 53 ∨
      shift b.mantissa (b.exponent - (r - 1074)) < 2 ^ 53 := by
    obtain hle | hle := le_total a.exponent b.exponent
    · have hplace : a.exponent - (r - 1074) = (0 : ℕ) := by omega
      rw [hplace, shift_natCast, pow_zero, mul_one]
      exact .inl ha.lt
    · have hplace : b.exponent - (r - 1074) = (0 : ℕ) := by omega
      rw [hplace, shift_natCast, pow_zero, mul_one]
      exact .inr hb.lt
  have hsize := size_pos hpos
  simp only [remainder, hr]
  generalize shift a.mantissa (a.exponent - (r - 1074)) = m at *
  generalize shift b.mantissa (b.exponent - (r - 1074)) = m' at *
  rw [hdivisor] at hsize htop
  have hm' : 0 < m' := Nat.pos_of_ne_zero fun hzero => by simp [hzero] at hsize
  rw [hdividend, hdivisor, ← Int.natCast_mod, Nat.mul_mod_mul_right]
  apply hasUnits_ofDyadic
  · exact hshort.elim (Nat.mod_le m m').trans_lt (Nat.mod_lt m hm').trans
  · refine lt_of_le_of_lt ?_ htop
    exact_mod_cast Nat.mul_le_mul_right _ (Nat.mod_lt m hm').le

/-- The remainder of a negation, unless there is none. -/
theorem neg_emod_of_ne_zero {k n : ℤ} (hn : 0 < n) (h : k % n ≠ 0) : -k % n = -(k % n) + n := by
  have hnonneg := Int.emod_nonneg k hn.ne'
  have hlt := Int.emod_lt_of_pos k hn
  have hsplit : -k = -(k % n) + n + n * (-(k / n) - 1) := by
    linear_combination Int.emod_add_mul_ediv k n
  rw [hsplit, Int.add_mul_emod_self_left, Int.emod_eq_of_lt (by omega) (by omega)]

/-- The remainder with the sign of a positive divisor is the exact remainder rounded. -/
theorem HasUnits.floorMod {x y : Float} {m n : ℤ} (hx : HasUnits x m) (hy : HasUnits y n)
    (hn : 0 < n) : HasUnits (floorMod x y) (rounded (m % n)) := by
  have htop := hy.abs_lt
  obtain ⟨a, ha, rfl⟩ := hx
  obtain ⟨b, hb, hunits⟩ := id hy
  obtain ⟨hpositive, hmantissa⟩ := of_units_pos (hunits ▸ hn)
  have hsize : b.size = n := by rw [← abs_units, hunits, abs_of_pos hn]
  have hr := hasUnits_remainder (normal_of_ofBits ha) (normal_of_ofBits hb) hmantissa
    (by rwa [← abs_units, hunits])
  rw [hsize] at hr
  unfold Number.floorMod
  rw [ha, hb]
  simp only [if_neg hmantissa.ne', hpositive, hr.beq_iff hasUnits_zero, Bool.false_eq_true,
    if_false]
  by_cases hzero : a.size % n = 0
  · have hmod : a.units % n = 0 := by
      rw [units_eq]
      split
      · exact Int.emod_eq_zero_of_dvd (dvd_neg.mpr (Int.dvd_of_emod_eq_zero hzero))
      · exact hzero
    rw [if_pos hzero, hmod, rounded_of_fits fits_zero]
    exact hasUnits_zero
  rw [if_neg hzero, units_eq]
  cases a.negative with
  | false =>
    simp only [Bool.false_eq_true, if_false, beq_self_eq_true, if_true]
    rwa [rounded_of_fits hr.fits]
  | true =>
    -- The remainder of a negative dividend is counted from the divisor.
    have hnonneg := Int.emod_nonneg (-a.size) hn.ne'
    have hlt := Int.emod_lt_of_pos (-a.size) hn
    have hbound : |rounded (-a.size % n)| < unitsOfTop := by
      rw [abs_of_nonneg (rounded_nonneg hnonneg)]
      rw [abs_of_pos hn] at htop
      exact (rounded_le_of_fits hlt.le hy.fits).trans_lt htop
    have hneg := neg_emod_of_ne_zero hn hzero
    simp only [if_true, Bool.true_beq, Bool.false_eq_true, if_false]
    rw [hneg] at hbound ⊢
    exact hr.neg.add hy hbound

end RobotProgram.Number
