import Mathlib.Data.Prod.Lex
import Mathlib.Order.Compare
import RobotProgram.Interval
import RobotProgram.Proofs.Equality

/-!
# The order of numbers

Floating-point numbers are compared by their signs, exponents and mantissas in turn. Normal layouts
are then in the order of the multiples of the least positive number that they stand for
(`compare_layout`), with the infinite numbers on both sides. So every number but not-a-number has a
height in a linear order, and comparisons are those of heights (`le_iff_height`, `lt_iff_height`).
In particular an interval includes what is between its bounds, in whichever order they are given
(`Interval.includes_iff`).
-/

namespace RobotProgram

namespace Number

open Float.Model (UnpackedFloat)
open Float.Model.UnpackedFloat (Sign)

/-! ### Layouts -/

/-- Of two layouts, the one with the greater exponent is greater if its mantissa has its leading
bit. -/
theorem size_lt_of_exponent_lt {m m' p p' : Nat} (hm : m < 2 ^ 53) (hm' : 2 ^ 52 ≤ m')
    (hp : p < p') : m * 2 ^ p < m' * 2 ^ p' :=
  calc m * 2 ^ p < 2 ^ 53 * 2 ^ p := Nat.mul_lt_mul_of_pos_right hm (Nat.two_pow_pos p)
    _ = 2 ^ 52 * 2 ^ (p + 1) := by ring
    _ ≤ m' * 2 ^ p' := Nat.mul_le_mul hm' (Nat.pow_le_pow_right (by decide) hp)

/-- The size of a number in units of the least positive one. -/
def Dyadic.size (d : Dyadic) : Int := d.mantissa * 2 ^ (d.exponent + 1074).toNat

/-- Normal layouts are compared as the numbers that they stand for. -/
theorem compare_layout {d d' : Dyadic} (h : d.Normal) (h' : d'.Normal) :
    (compare d.exponent d'.exponent).then (compare d.mantissa d'.mantissa) =
      cmp d.size d'.size := by
  have hless {d d' : Dyadic} (h : d.Normal) (h' : d'.Normal)
      (hlt : d.exponent < d'.exponent ∨ d.exponent = d'.exponent ∧ d.mantissa < d'.mantissa) :
      d.size < d'.size := by
    unfold Dyadic.size
    obtain hexponent | ⟨hexponent, hmantissa⟩ := hlt
    · have hleast := h.least
      have hlead : 2 ^ 52 ≤ d'.mantissa := h'.leading.resolve_right (by omega)
      exact_mod_cast size_lt_of_exponent_lt h.lt hlead (by omega)
    · rw [hexponent]
      exact_mod_cast Nat.mul_lt_mul_of_pos_right hmantissa (Nat.two_pow_pos _)
  obtain hlt | heq | hgt := lt_trichotomy d.exponent d'.exponent
  · rw [cmp_eq_lt_iff _ _ |>.mpr (hless h h' (.inl hlt)), Int.compare_eq_lt.mpr hlt]
    rfl
  · rw [Int.compare_eq_eq.mpr heq]
    obtain hlt | hmantissa | hgt := lt_trichotomy d.mantissa d'.mantissa
    · rw [cmp_eq_lt_iff _ _ |>.mpr (hless h h' (.inr ⟨heq, hlt⟩)), Nat.compare_eq_lt.mpr hlt]
      rfl
    · rw [Nat.compare_eq_eq.mpr hmantissa, Dyadic.size, Dyadic.size, heq, hmantissa, cmp_self_eq_eq]
      rfl
    · rw [cmp_eq_gt_iff _ _ |>.mpr (hless h' h (.inr ⟨heq.symm, hgt⟩)), Nat.compare_eq_gt.mpr hgt]
      rfl
  · rw [cmp_eq_gt_iff _ _ |>.mpr (hless h' h (.inl hgt)), Int.compare_eq_gt.mpr hgt]
    rfl

/-! ### Heights -/

/-- The height of a number: its multiple of the least positive one, if it is finite, and otherwise
above or below all of these. -/
def Exact.height : Exact → Option (Int ×ₗ Int)
  | .nan => none
  | .infinite negative => some (toLex (if negative then -1 else 1, 0))
  | .finite d => some (toLex (0, d.units))

/-- The height of a floating-point number. -/
def height (x : Float) : Option (Int ×ₗ Int) := (exact x).height

/-- Finite numbers are compared by their units, also by height. -/
theorem cmp_height (m n : Int) : cmp (toLex ((0 : Int), m)) (toLex (0, n)) = cmp m n := by
  have hheight : StrictMono fun n : Int => toLex ((0 : Int), n) :=
    fun _ _ h => Prod.Lex.toLex_lt_toLex.mpr (.inr ⟨rfl, h⟩)
  exact hheight.cmp_map_eq m n

/-- The size of a number that is unpacked as finite is not zero. -/
theorem size_pos {d : Dyadic} (h : 0 < d.mantissa) : 0 < d.size :=
  Int.mul_pos (by exact_mod_cast h) (pow_pos (by decide) _)

/-- Finite numbers are compared by their multiples of the least positive one. -/
theorem compare_finite {s t : Sign} {m m' : Nat} {e e' : Int} (h : 0 < m) (h' : 0 < m')
    (hd : Dyadic.Normal ⟨isNegative s, m, e⟩) (hd' : Dyadic.Normal ⟨isNegative t, m', e'⟩) :
    (UnpackedFloat.finite s m e h).compare (.finite t m' e' h') =
      some (cmp (Dyadic.units ⟨isNegative s, m, e⟩) (Dyadic.units ⟨isNegative t, m', e'⟩)) := by
  have hsize := compare_layout hd hd'
  have hpos := @size_pos ⟨isNegative s, m, e⟩ h
  have hpos' := @size_pos ⟨isNegative t, m', e'⟩ h'
  cases s with
  | negative =>
    cases t with
    | negative =>
      -- Below zero the number of the greater size is the smaller one.
      have hneg : StrictAnti fun n : Int => -n := fun _ _ => Int.neg_lt_neg
      have hunits := hneg.cmp_map_eq (Dyadic.size ⟨true, m, e⟩) (Dyadic.size ⟨true, m', e'⟩)
      change some ((compare e e').then (compare m m')).swap = some (cmp (-_) (-_))
      exact congrArg some ((congrArg Ordering.swap hsize).trans ((cmp_swap _ _).trans hunits.symm))
    | positive =>
      have hlt : -Dyadic.size ⟨true, m, e⟩ < Dyadic.size ⟨false, m', e'⟩ :=
        (neg_lt_zero.mpr hpos).trans hpos'
      exact congrArg some ((cmp_eq_lt_iff _ _).mpr hlt).symm
  | positive =>
    cases t with
    | negative =>
      have hgt : -Dyadic.size ⟨true, m', e'⟩ < Dyadic.size ⟨false, m, e⟩ :=
        (neg_lt_zero.mpr hpos').trans hpos
      exact congrArg some ((cmp_eq_gt_iff _ _).mpr hgt).symm
    | positive => exact congrArg some hsize

/-- The negative infinite number is below the finite ones. -/
theorem below_finite (n : Int) : toLex ((-1 : Int), (0 : Int)) < toLex (0, n) :=
  Prod.Lex.toLex_lt_toLex.mpr (.inl (by decide : (-1 : Int) < 0))

/-- The positive infinite number is above the finite ones. -/
theorem above_finite (n : Int) : toLex (0, n) < toLex ((1 : Int), (0 : Int)) :=
  Prod.Lex.toLex_lt_toLex.mpr (.inl Int.zero_lt_one)

/-- An infinite and a finite number are compared by height. -/
theorem cmp_infinite_finite (s : Sign) (d : Dyadic) :
    some (if isNegative s then .lt else .gt) =
      (Exact.infinite (isNegative s)).height.bind fun a => (Exact.finite d).height.map (cmp a) := by
  cases s with
  | negative => exact congrArg some ((cmp_eq_lt_iff _ _).mpr (below_finite d.units)).symm
  | positive => exact congrArg some ((cmp_eq_gt_iff _ _).mpr (above_finite d.units)).symm

/-- A finite and an infinite number are compared by height. -/
theorem cmp_finite_infinite (s : Sign) (d : Dyadic) :
    some (if isNegative s then .gt else .lt) =
      (Exact.finite d).height.bind fun a => (Exact.infinite (isNegative s)).height.map (cmp a) := by
  cases s with
  | negative => exact congrArg some ((cmp_eq_gt_iff _ _).mpr (below_finite d.units)).symm
  | positive => exact congrArg some ((cmp_eq_lt_iff _ _).mpr (above_finite d.units)).symm

/-- Two finite numbers are compared by height. -/
theorem cmp_finite_finite (d d' : Dyadic) :
    some (cmp d.units d'.units) =
      (Exact.finite d).height.bind fun a => (Exact.finite d').height.map (cmp a) :=
  congrArg some (cmp_height _ _).symm

/-- Unpacked numbers are compared by their heights. -/
theorem compare_unpacked {u v : UnpackedFloat} (hu : ∀ d, ofUnpacked u = .finite d → d.Normal)
    (hv : ∀ d, ofUnpacked v = .finite d → d.Normal) :
    u.compare v = (ofUnpacked u).height.bind fun a => (ofUnpacked v).height.map (cmp a) := by
  have hzero (s : Sign) : Dyadic.units ⟨isNegative s, 0, -1074⟩ = 0 := by cases s <;> rfl
  cases u with
  | notANumber => rfl
  | infinity s =>
    cases v with
    | notANumber => cases s <;> rfl
    | infinity t => cases s <;> cases t <;> decide
    | zero t => exact (by cases s <;> rfl : _ = _).trans (cmp_infinite_finite s _)
    | finite t m' e' h' => exact (by cases s <;> rfl : _ = _).trans (cmp_infinite_finite s _)
  | zero s =>
    cases v with
    | notANumber => rfl
    | infinity t => exact (by cases t <;> rfl : _ = _).trans (cmp_finite_infinite t _)
    | zero t =>
      refine Eq.trans ?_ (cmp_finite_finite ⟨isNegative s, 0, -1074⟩ ⟨isNegative t, 0, -1074⟩)
      rw [hzero, hzero]
      rfl
    | finite t m' e' h' =>
      have hsize := @size_pos ⟨isNegative t, m', e'⟩ h'
      refine Eq.trans ?_ (cmp_finite_finite ⟨isNegative s, 0, -1074⟩ ⟨isNegative t, m', e'⟩)
      rw [hzero]
      cases t with
      | negative => exact congrArg some ((cmp_eq_gt_iff _ _).mpr (neg_lt_zero.mpr hsize)).symm
      | positive => exact congrArg some ((cmp_eq_lt_iff _ _).mpr hsize).symm
  | finite s m e h =>
    cases v with
    | notANumber => cases s <;> rfl
    | infinity t => exact (by cases s <;> cases t <;> rfl : _ = _).trans (cmp_finite_infinite t _)
    | zero t =>
      have hsize := @size_pos ⟨isNegative s, m, e⟩ h
      refine Eq.trans ?_ (cmp_finite_finite ⟨isNegative s, m, e⟩ ⟨isNegative t, 0, -1074⟩)
      rw [hzero]
      cases s with
      | negative => exact congrArg some ((cmp_eq_lt_iff _ _).mpr (neg_lt_zero.mpr hsize)).symm
      | positive => exact congrArg some ((cmp_eq_gt_iff _ _).mpr hsize).symm
    | finite t m' e' h' =>
      exact (compare_finite h h' (hu _ rfl) (hv _ rfl)).trans (cmp_finite_finite _ _)

/-- Floating-point numbers are compared by their heights. -/
theorem compare_eq (x y : Float) :
    x.toModel.unpack.compare y.toModel.unpack =
      (height x).bind fun a => (height y).map (cmp a) := by
  have hnormal (x : Float) (d : Dyadic) (hd : ofUnpacked x.toModel.unpack = .finite d) :
      d.Normal := by
    rw [← exact_eq] at hd
    exact normal_of_ofBits hd
  rw [compare_unpacked (hnormal x) (hnormal y), ← exact_eq, ← exact_eq]
  rfl

/-- The weak order of floats is that of their unpacked forms. -/
theorem le_iff_unpacked {x y : Float} : x ≤ y ↔ x.toModel.unpack.le y.toModel.unpack = true :=
  decide_eq_true_iff

/-- The order of floats is that of their unpacked forms. -/
theorem lt_iff_unpacked {x y : Float} : x < y ↔ x.toModel.unpack.lt y.toModel.unpack = true :=
  decide_eq_true_iff

-- Comparisons of numbers whose heights are known.
section Heights

variable {x y : Float} {a b : Int ×ₗ Int}

/-- The weak order of floats that are numbers is that of their heights. -/
theorem le_iff_height (hx : height x = some a) (hy : height y = some b) : x ≤ y ↔ a ≤ b := by
  rw [le_iff_unpacked, UnpackedFloat.le, compare_eq, hx, hy]
  change (cmp a b).isLE = true ↔ _
  obtain hlt | rfl | hgt := lt_trichotomy a b
  · rw [(cmp_eq_lt_iff _ _).mpr hlt]
    exact iff_of_true rfl hlt.le
  · rw [cmp_self_eq_eq]
    exact iff_of_true rfl le_rfl
  · rw [(cmp_eq_gt_iff _ _).mpr hgt]
    exact iff_of_false nofun hgt.not_ge

/-- The order of floats that are numbers is that of their heights. -/
theorem lt_iff_height (hx : height x = some a) (hy : height y = some b) : x < y ↔ a < b := by
  rw [lt_iff_unpacked, UnpackedFloat.lt, compare_eq, hx, hy]
  change (some (cmp a b) == some .lt) = true ↔ _
  rw [beq_iff_eq, Option.some_inj, cmp_eq_lt_iff]

/-- Floats that are numbers are equal exactly when their heights are. -/
theorem beq_iff_height (hx : height x = some a) (hy : height y = some b) :
    (x == y) = true ↔ a = b := by
  change (x.toModel.unpack.compare y.toModel.unpack == some .eq) = true ↔ _
  rw [compare_eq, hx, hy]
  change (some (cmp a b) == some .eq) = true ↔ _
  rw [beq_iff_eq, Option.some_inj, cmp_eq_eq_iff]

end Heights

/-- Not-a-number compares with nothing. -/
theorem compare_eq_none {x y : Float} (h : height x = none ∨ height y = none) :
    ¬x ≤ y ∧ ¬x < y ∧ (x == y) = false := by
  have hnone : x.toModel.unpack.compare y.toModel.unpack = none := by
    rw [compare_eq]
    obtain hx | hy := h
    · rw [hx]
      rfl
    · rw [hy]
      cases height x <;> rfl
  have hbeq : (x == y) = (x.toModel.unpack.compare y.toModel.unpack == some .eq) := rfl
  rw [le_iff_unpacked, lt_iff_unpacked, hbeq, UnpackedFloat.le, UnpackedFloat.lt, hnone]
  decide

end Number

/-! ### Intervals -/

open Number in
/-- An interval includes what is between its bounds, and the bounds. It also includes its first
bound if the second is not-a-number. -/
theorem Interval.includes_iff (i : Interval Float) (x : Float) :
    i.includes x = true ↔
      (i.start ≤ x ∧ x ≤ i.stop) ∨ (i.stop ≤ x ∧ x ≤ i.start) ∨
        (i.stop == i.stop) = false ∧ (x == i.start) = true := by
  have hincludes : i.includes x = true ↔
      (if i.stop < i.start then i.stop else i.start) ≤ x ∧
        x ≤ if i.start < i.stop then i.stop else i.start := by
    simp [includes, min, max, Scalar.least, Scalar.greatest, Scalar.lt, Scalar.le]
  rw [hincludes]
  cases hx : height x with
  | none => simp [compare_eq_none (.inl hx), compare_eq_none (.inr hx)]
  | some c =>
    cases hstart : height i.start with
    | none => simp [compare_eq_none (.inl hstart), compare_eq_none (.inr hstart)]
    | some a =>
      cases hstop : height i.stop with
      | none =>
        simp only [compare_eq_none (.inl hstop), compare_eq_none (.inr hstop), if_false, and_false,
          false_and, false_or, true_and, le_iff_height hstart hx, le_iff_height hx hstart,
          beq_iff_height hx hstart]
        exact ⟨fun h => le_antisymm h.2 h.1, fun h => ⟨h.ge, h.le⟩⟩
      | some b =>
        have hself : (i.stop == i.stop) = true := (beq_iff_height hstop hstop).mpr rfl
        simp only [hself, Bool.true_eq_false, false_and, or_false, lt_iff_height hstart hstop,
          lt_iff_height hstop hstart, le_iff_height hstart hx, le_iff_height hx hstart,
          le_iff_height hstop hx, le_iff_height hx hstop, apply_ite (· ≤ x), apply_ite (x ≤ ·)]
        obtain hab | rfl | hba := lt_trichotomy a b
        · rw [if_neg hab.not_gt, if_pos hab]
          exact ⟨.inl, Or.rec id fun h => absurd (h.1.trans h.2) hab.not_ge⟩
        · simp
        · rw [if_pos hba, if_neg hba.not_gt]
          exact ⟨.inr, Or.rec (fun h => absurd (h.1.trans h.2) hba.not_ge) id⟩

end RobotProgram
