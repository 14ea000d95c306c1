import RobotProgram.Action.Speed
import RobotProgram.Proofs.FloatArithmetic

/-!
# Nearest speeds

A tool speed is moved to the nearest one of the table by a walk that keeps the first of several
least distances (`isNearest_foldl`). Distances of whole numbers are exact. Those of floating-point
numbers are rounded, but while a number has places below one, the distance of a nearer and faster
speed is exact, and so is that of the slower one (`isNearest_of_rounded`).

Larger numbers are whole, and the nearest speed is the fastest. It is found as long as its rounded
distance is less than that of the next one, a thousand slower, and this depends on how many of the
last places the two speeds are (`rounded_distances_lt_iff`): it holds below `2^63 + 2^13` and again
from `2^64 + 2^13` to `2^65`, and for no other number.
-/

namespace RobotProgram

open Number

/-! ### The walk through the table -/

/-- A speed of a table has the least distance, and each slower one has a greater distance. -/
structure IsNearest {α : Type} [LinearOrder α] (distance : ℕ → α) (table : List ℕ) (s : ℕ) :
    Prop where
  mem : s ∈ table
  least : ∀ t ∈ table, distance s ≤ distance t
  slowest : ∀ t ∈ table, t < s → distance s < distance t

section

variable {α β : Type} [LinearOrder α] [LinearOrder β] {f : ℕ → α} {g : ℕ → β} {table : List ℕ}
  {s t : ℕ}

/-- Only one entry of a table is the nearest that comes first. -/
theorem IsNearest.unique (h : IsNearest f table s) (h' : IsNearest f table t) : s = t := by
  obtain hlt | heq | hgt := lt_trichotomy s t
  · exact absurd (h.least t h'.mem) (h'.slowest s h.mem hlt).not_ge
  · exact heq
  · exact absurd (h'.least s h.mem) (h.slowest t h'.mem hgt).not_ge

/-- Only the order of the distances matters. -/
theorem isNearest_congr (h : ∀ s t, f s ≤ f t ↔ g s ≤ g t) :
    IsNearest f table s ↔ IsNearest g table s := by
  have hlt (s t : ℕ) : f s < f t ↔ g s < g t := by rw [← not_le, ← not_le, h]
  exact ⟨fun hs => ⟨hs.mem, fun t ht => (h s t).mp (hs.least t ht),
      fun t ht hts => (hlt s t).mp (hs.slowest t ht hts)⟩,
    fun hs => ⟨hs.mem, fun t ht => (h s t).mpr (hs.least t ht),
      fun t ht hts => (hlt s t).mpr (hs.slowest t ht hts)⟩⟩

/-- A single entry is nearest. -/
theorem isNearest_singleton (f : ℕ → α) (s : ℕ) : IsNearest f [s] s := by
  refine ⟨List.mem_singleton_self s, ?_, ?_⟩
  · intro t ht
    rw [List.mem_singleton.mp ht]
  · intro t ht hlt
    exact absurd (List.mem_singleton.mp ht) hlt.ne

/-- The next speed is taken only if it is nearer. -/
theorem IsNearest.next (h : IsNearest f table s) (ht : ∀ r ∈ table, r < t) :
    IsNearest f (table ++ [t]) (if f t < f s then t else s) := by
  split
  case isTrue hlt =>
    exact ⟨by simp,
      List.forall_mem_append.mpr ⟨fun r hr => hlt.le.trans (h.least r hr),
        List.forall_mem_singleton.mpr le_rfl⟩,
      List.forall_mem_append.mpr ⟨fun r hr _ => hlt.trans_le (h.least r hr),
        List.forall_mem_singleton.mpr fun hlt => absurd hlt (lt_irrefl t)⟩⟩
  case isFalse hge =>
    exact ⟨by simp [h.mem],
      List.forall_mem_append.mpr ⟨h.least, List.forall_mem_singleton.mpr (not_lt.mp hge)⟩,
      List.forall_mem_append.mpr ⟨h.slowest,
        List.forall_mem_singleton.mpr fun hlt => absurd (ht s h.mem) hlt.not_gt⟩⟩

/-- A walk through speeds in their order ends at the nearest. -/
theorem isNearest_foldl {step : ℕ → ℕ → ℕ} {seen rest : List ℕ}
    (hsorted : (seen ++ rest).Pairwise (· < ·))
    (hstep : ∀ s ∈ seen ++ rest, ∀ t ∈ seen ++ rest, step s t = if f t < f s then t else s)
    (hs : IsNearest f seen s) : IsNearest f (seen ++ rest) (rest.foldl step s) := by
  induction rest generalizing seen s with
  | nil => simpa using hs
  | cons t rest ih =>
    have hbelow : ∀ r ∈ seen, r < t := fun r hr =>
      (List.pairwise_append.mp hsorted).2.2 r hr t (by simp)
    have hnext := hs.next hbelow
    rw [← hstep s (by simp [hs.mem]) t (by simp)] at hnext
    have happend : seen ++ t :: rest = seen ++ [t] ++ rest := by simp
    rw [happend] at hsorted hstep ⊢
    exact ih hsorted hstep hnext

end

/-- The speed that is found is the nearest by the distances that are compared. -/
theorem isNearest_nearestSpeed {v : Value.Quantity} {f : ℕ → ℤ}
    (h : ∀ s ∈ predefinedSpeeds, ∀ t ∈ predefinedSpeeds,
      (speedDistance v t).order (speedDistance v s) = some .lt ↔ f t < f s) :
    IsNearest f predefinedSpeeds (nearestSpeed v) := by
  have hstep : ∀ s ∈ [5] ++ predefinedSpeeds.tail, ∀ t ∈ [5] ++ predefinedSpeeds.tail,
      nearer v s t = if f t < f s then t else s := by
    intro s hs t ht
    simp only [nearer, beq_iff_eq, h s hs t ht]
  exact isNearest_foldl (by decide) hstep (isNearest_singleton f 5)

/-! ### Distances -/

/-- Distances from a whole number are compared exactly. -/
theorem speedDistance_whole_lt_iff (n : ℤ) (s t : ℕ) :
    (speedDistance (.whole n) t).order (speedDistance (.whole n) s) = some .lt ↔
      |(t : ℤ) - n| < |(s : ℤ) - n| := by
  change some (compare (((t : ℤ) - n).natAbs : ℤ) ((s : ℤ) - n).natAbs) = _ ↔ _
  rw [Option.some_inj, Int.compare_eq_lt, Int.natCast_natAbs, Int.natCast_natAbs]

/-- A speed of the table as a float. -/
theorem hasUnits_speed {s : ℕ} (hs : s ∈ predefinedSpeeds) :
    HasUnits (Float.ofNat s) (s * unitsOfOne) := by
  have hlayout : ∀ s ∈ predefinedSpeeds,
      exact (Float.ofNat s) = .finite ⟨false, s * 2 ^ (52 - s.log2), -((52 - s.log2 : ℕ) : ℤ)⟩ := by
    decide
  exact hasUnits_whole (by omega) (hlayout s hs)

/-- The distance of a floating-point number is the exact one rounded. -/
theorem hasUnits_distance {x : Float} {n : ℤ} (hx : HasUnits x n) {s : ℕ}
    (hs : s ∈ predefinedSpeeds) :
    HasUnits (Float.ofNat s - x).abs (rounded |s * unitsOfOne - n|) := by
  have hbound : ∀ s ∈ predefinedSpeeds, s ≤ 2 ^ 14 := by decide
  have hsmall : |s * unitsOfOne| ≤ 2 ^ 14 * unitsOfOne := by
    rw [abs_mul, abs_of_pos unitsOfOne_pos, Nat.abs_cast]
    exact mul_le_mul_of_nonneg_right (by exact_mod_cast hbound s hs) unitsOfOne_pos.le
  rw [← abs_rounded]
  exact ((hasUnits_speed hs).small_sub hsmall hx).abs

/-- Distances from a float are compared after rounding. -/
theorem speedDistance_real_lt_iff {x : Float} {n : ℤ} (hx : HasUnits x n) {s t : ℕ}
    (hs : s ∈ predefinedSpeeds) (ht : t ∈ predefinedSpeeds) :
    (speedDistance (.real x) t).order (speedDistance (.real x) s) = some .lt ↔
      rounded |t * unitsOfOne - n| < rounded |s * unitsOfOne - n| := by
  rw [← (hasUnits_distance hx ht).lt_iff (hasUnits_distance hx hs)]
  simp only [speedDistance, Value.Quantity.order]
  split_ifs with h1 h2 h3 <;> simp [*]

/-! ### Distances that are exact -/

/-- A difference of a speed and a number has no place below the last one of the number, so it is
exact if it is not longer. -/
theorem fits_distance {n : ℤ} (hn : Fits n) (hlt : |n| < 2 ^ 53 * unitsOfOne) (s : ℕ)
    (hle : |s * unitsOfOne - n| ≤ |n|) : Fits |s * unitsOfOne - n| := by
  have hplace : lastPlace n ≤ 1074 := by
    rw [lastPlace_le_iff, pow_add]
    rwa [unitsOfOne] at hlt
  have hone : 2 ^ lastPlace n ∣ unitsOfOne := by
    rw [unitsOfOne]
    exact pow_dvd_pow 2 hplace
  have hdvd := (dvd_abs _ _).mpr (dvd_sub (hone.mul_left s) (fits_iff.mp hn))
  refine fits_of_dvd hdvd ?_
  rw [abs_abs]
  exact hle.trans (abs_lt_two_pow n).le

/-- A faster speed that is nearer stays nearer when the distances are rounded. -/
theorem rounded_distance_lt {n : ℤ} (hn : Fits n) (hlt : n < 2 ^ 53 * unitsOfOne) {s t : ℕ}
    (hst : s < t) (h : |t * unitsOfOne - n| < |s * unitsOfOne - n|) :
    rounded |t * unitsOfOne - n| < rounded |s * unitsOfOne - n| := by
  have hone := unitsOfOne_pos
  have hspeeds : (s : ℤ) * unitsOfOne < t * unitsOfOne :=
    mul_lt_mul_of_pos_right (by exact_mod_cast hst) hone
  have hspeed : 0 ≤ (s : ℤ) * unitsOfOne := by positivity
  -- The number is beyond the slower speed, so neither distance is greater than the number.
  have hbeyond : s * unitsOfOne < n := by
    by_contra hbelow
    rw [abs_of_nonneg (by omega), abs_of_nonneg (by omega)] at h
    omega
  have hslower : |s * unitsOfOne - n| ≤ |n| := by
    rw [abs_of_neg (by omega), abs_of_nonneg (by omega)]
    omega
  have hsize : |n| < 2 ^ 53 * unitsOfOne := by rwa [abs_of_nonneg (by omega)]
  rw [rounded_of_fits (fits_distance hn hsize s hslower),
    rounded_of_fits (fits_distance hn hsize t (h.le.trans hslower))]
  exact h

/-- The nearest speed by rounded distances is the nearest by exact ones, unless the number has no
place below one. -/
theorem isNearest_of_rounded {n : ℤ} (hn : Fits n) (hlt : n < 2 ^ 53 * unitsOfOne) {s : ℕ}
    (h : IsNearest (fun t : ℕ => rounded |t * unitsOfOne - n|) predefinedSpeeds s) :
    IsNearest (fun t : ℕ => |t * unitsOfOne - n|) predefinedSpeeds s := by
  refine ⟨h.mem, ?_, ?_⟩
  · intro t ht
    by_contra hnearer
    rw [not_le] at hnearer
    obtain hts | rfl | hst := lt_trichotomy t s
    · exact (h.slowest t ht hts).not_ge (rounded_le hnearer.le)
    · exact lt_irrefl _ hnearer
    · exact (h.least t ht).not_gt (rounded_distance_lt hn hlt hst hnearer)
  · intro t ht hts
    by_contra hnearer
    exact (h.slowest t ht hts).not_ge (rounded_le (not_lt.mp hnearer))

/-! ### Distances of large numbers -/

/-- An integer is rounded to a multiple of its last place. -/
theorem rounded_eq_mul {n k : ℤ} {s : ℕ} (hlow : 2 ^ (52 + s) ≤ n) (hhigh : n < 2 ^ (53 + s))
    (hnear : 2 * |n - k * 2 ^ s| < 2 ^ s) : rounded n = k * 2 ^ s := by
  have hnonneg : 0 ≤ n := le_trans (by positivity) hlow
  exact rounded_eq_of_near (lastPlace_eq (by rwa [abs_of_nonneg hnonneg])
    (by rwa [abs_of_nonneg hnonneg])) hnear

/-- Below `2^62` both distances together are moved by less than their difference. -/
theorem rounded_distances_small {n : ℤ} (hlow : 2 ^ 53 ≤ n) (hhigh : n - 7000 < 2 ^ 62) :
    rounded (n - 7000) < rounded (n - 6000) := by
  have hfast := abs_rounded_sub_le (n := n - 7000) (s := 9)
    (lastPlace_le_iff.mpr (by rw [abs_of_nonneg (by omega)]; omega))
  have hslow := abs_rounded_sub_le (n := n - 6000) (s := 10)
    (lastPlace_le_iff.mpr (by rw [abs_of_nonneg (by omega)]; omega))
  have hup := le_abs_self (rounded (n - 7000) - (n - 7000))
  have hdown := neg_abs_le (rounded (n - 6000) - (n - 6000))
  omega

/-- Numbers of which the last place is above twice the fastest speed are not moved by one. -/
theorem rounded_sub_of_large {n : ℤ} (hn : Fits n) (hlow : 2 ^ 66 ≤ n - 7000) {t : ℤ}
    (ht : 0 < t) (ht' : t ≤ 7000) : rounded (n - t) = n := by
  obtain ⟨s, hs⟩ : ∃ s, lastPlace (n - 7000) = s := ⟨_, rfl⟩
  have habs : |n - 7000| = n - 7000 := abs_of_nonneg (by omega)
  have hplace : 14 ≤ s := hs ▸ le_lastPlace (by rw [habs]; exact hlow)
  have hpow : (2 : ℤ) ^ 14 ≤ 2 ^ s := pow_le_pow_right₀ (by norm_num) hplace
  have hbelow : 2 ^ (52 + s) ≤ n - 7000 := by
    have := two_pow_le_abs (n := n - 7000) (by omega)
    rwa [habs, hs] at this
  have habove : n - 7000 < 2 ^ (53 + s) := by
    have := abs_lt_two_pow (n - 7000)
    rwa [habs, hs] at this
  obtain ⟨k, hk⟩ := hn.dvd (s := s) (by rw [abs_of_nonneg (by omega)]; omega)
  -- A multiple of the last place is not between the next power of two and the speed above it.
  have hmultiple : n ≤ 2 ^ (53 + s) := by
    by_contra hlt
    have hgap := Int.le_of_dvd (by omega) (dvd_sub ⟨k, hk⟩ (pow_dvd_pow 2 (by omega : s ≤ 53 + s)))
    omega
  have hquotient : k * 2 ^ s = n := by rw [hk, mul_comm]
  rw [rounded_eq_mul (k := k) (s := s) (by omega) (by omega), hquotient]
  rw [hquotient, sub_sub_cancel_left, abs_neg, abs_of_pos ht]
  omega

/-- The distances from the two fastest speeds, for a number that is a multiple of the last place of
both: rounding takes away the nearest multiple of that place in the stead of each speed. -/
theorem rounded_distances {n k a b : ℤ} {s : ℕ} (hk : n = 2 ^ s * k)
    (hlow : 2 ^ (52 + s) ≤ n - 7000) (hhigh : n - 6000 < 2 ^ (53 + s))
    (ha : 2 * |a * 2 ^ s - 7000| < 2 ^ s) (hb : 2 * |b * 2 ^ s - 6000| < 2 ^ s) :
    rounded (n - 7000) < rounded (n - 6000) ↔ b < a := by
  have hpos : (0 : ℤ) < 2 ^ s := by positivity
  have hfast : n - 7000 - (k - a) * 2 ^ s = a * 2 ^ s - 7000 := by rw [hk]; ring
  have hslow : n - 6000 - (k - b) * 2 ^ s = b * 2 ^ s - 6000 := by rw [hk]; ring
  rw [rounded_eq_mul hlow (by omega) (by rwa [hfast]),
    rounded_eq_mul (by omega) hhigh (by rwa [hslow]), mul_lt_mul_iff_left₀ hpos]
  omega

/-- The distances from the two fastest speeds are told apart. -/
theorem rounded_distances_lt_iff {n : ℤ} (hn : Fits n) (hlow : 2 ^ 53 ≤ n) :
    rounded (n - 7000) < rounded (n - 6000) ↔
      n < 2 ^ 63 + 2 ^ 13 ∨ 2 ^ 64 + 2 ^ 13 ≤ n ∧ n ≤ 2 ^ 65 := by
  have hmultiple (s : ℕ) (h : 2 ^ (52 + s) ≤ n) : 2 ^ s ∣ n :=
    hn.dvd (by rwa [abs_of_nonneg (by omega)])
  -- By the last place of the distances: 7000 and 6000 are nearest to 7 and 6 places of 1024, to 3
  -- of 2048, to 2 and 1 of 4096, to 1 of 8192, and to none of any greater place.
  obtain hsmall | h62 := lt_or_ge (n - 7000) (2 ^ 62)
  · exact iff_of_true (rounded_distances_small hlow hsmall) (by omega)
  obtain h63 | h63 := lt_or_ge (n - 6000) (2 ^ 63)
  · obtain ⟨k, hk⟩ := hmultiple 10 (by omega)
    rw [rounded_distances (a := 7) (b := 6) hk h62 h63 (by norm_num) (by norm_num)]
    omega
  obtain ⟨k, hk⟩ := hmultiple 11 (by omega)
  obtain hone | h63' := lt_or_ge (n - 7000) (2 ^ 63)
  · -- The two distances have different last places.
    obtain rfl : n = 2 ^ 63 + 6144 := by omega
    have hfast : rounded (2 ^ 63 + 6144 - 7000) = (2 ^ 53 - 1) * 2 ^ 10 :=
      rounded_eq_mul (by norm_num) (by norm_num) (by norm_num)
    have hslow : 2 ^ 63 ≤ rounded (2 ^ 63 + 6144 - 6000) :=
      le_rounded_of_fits h63 (fits_mul_two_pow (m := 1) (by norm_num) 63)
    omega
  obtain h64 | h64 := lt_or_ge (n - 6000) (2 ^ 64)
  · rw [rounded_distances (a := 3) (b := 3) hk h63' h64 (by norm_num) (by norm_num)]
    omega
  obtain ⟨k, hk⟩ := hmultiple 12 (by omega)
  obtain h65 | h65 := lt_or_ge (n - 6000) (2 ^ 65)
  · have hwhole (h : 2 ^ 65 ≤ n) := hmultiple 13 h
    rw [rounded_distances (a := 2) (b := 1) hk (by omega) h65 (by norm_num) (by norm_num)]
    omega
  obtain ⟨k, hk⟩ := hmultiple 13 (by omega)
  obtain h66 | h66 := lt_or_ge (n - 6000) (2 ^ 66)
  · rw [rounded_distances (a := 1) (b := 1) hk (by omega) h66 (by norm_num) (by norm_num)]
    omega
  · obtain ⟨k, hk⟩ := hmultiple 14 (by omega)
    rw [rounded_sub_of_large hn (by omega) (by norm_num) le_rfl,
      rounded_sub_of_large hn (by omega) (by norm_num) (by norm_num)]
    omega

/-- A large number is a whole one. -/
theorem exists_whole {n : ℤ} (hn : Fits n) (hlow : 2 ^ 53 * unitsOfOne ≤ n) :
    ∃ m, Fits m ∧ 2 ^ 53 ≤ m ∧ n = m * unitsOfOne := by
  have hone := unitsOfOne_pos
  have hpow : unitsOfOne = 2 ^ 1074 := by rw [unitsOfOne]
  have hdvd : unitsOfOne ∣ n := by
    rw [hpow]
    refine hn.dvd (le_trans ?_ (le_abs_self n))
    rw [pow_add, ← hpow]
    omega
  obtain ⟨m, rfl⟩ := hdvd
  rw [mul_comm (2 ^ 53)] at hlow
  refine ⟨m, ?_, le_of_mul_le_mul_left hlow hone, mul_comm _ _⟩
  have hrounded := rounded_of_fits hn
  rw [mul_comm, hpow, rounded_mul_two_pow] at hrounded
  rw [← mul_right_cancel₀ (by positivity) hrounded]
  exact fits_rounded m

/-- No speed of the table is greater than the last one. -/
theorem le_fastest {s : ℕ} (hs : s ∈ predefinedSpeeds) : s ≤ 7000 := by
  revert s
  decide

/-- The distance from beyond all speeds. -/
theorem distance_of_le {n : ℤ} (h : 7000 * unitsOfOne ≤ n) {t : ℕ} (ht : t ≤ 7000) :
    |t * unitsOfOne - n| = n - t * unitsOfOne := by
  have hle : (t : ℤ) * unitsOfOne ≤ 7000 * unitsOfOne :=
    mul_le_mul_of_nonneg_right (by exact_mod_cast ht) unitsOfOne_pos.le
  rw [abs_of_nonpos (by omega), neg_sub]

/-- The nearest speed to a number beyond all is the fastest. -/
theorem isNearest_fastest {n : ℤ} (h : 7000 * unitsOfOne ≤ n) :
    IsNearest (fun t : ℕ => |t * unitsOfOne - n|) predefinedSpeeds 7000 := by
  refine ⟨by decide, ?_, ?_⟩
  · intro t ht
    rw [distance_of_le h le_rfl, distance_of_le h (le_fastest ht)]
    have hle : (t : ℤ) * unitsOfOne ≤ (7000 : ℕ) * unitsOfOne :=
      mul_le_mul_of_nonneg_right (by exact_mod_cast le_fastest ht) unitsOfOne_pos.le
    omega
  · intro t ht hlt
    rw [distance_of_le h le_rfl, distance_of_le h hlt.le]
    have hless : (t : ℤ) * unitsOfOne < (7000 : ℕ) * unitsOfOne :=
      mul_lt_mul_of_pos_right (by exact_mod_cast hlt) unitsOfOne_pos
    omega

/-- The speed that is the nearest by rounded distances from a large number is the fastest, if the
rounded distances from the two fastest are told apart. -/
theorem eq_fastest_iff {m : ℤ} (hm : 2 ^ 53 ≤ m) {s : ℕ}
    (h : IsNearest (fun t : ℕ => rounded |t * unitsOfOne - m * unitsOfOne|) predefinedSpeeds s) :
    s = 7000 ↔ rounded (m - 7000) < rounded (m - 6000) := by
  have hone := unitsOfOne_pos
  have hdistance {t : ℕ} (ht : t ≤ 7000) :
      rounded |t * unitsOfOne - m * unitsOfOne| = rounded (m - t) * unitsOfOne := by
    have hbeyond : 7000 * unitsOfOne ≤ m * unitsOfOne :=
      mul_le_mul_of_nonneg_right (by omega) hone.le
    rw [distance_of_le hbeyond ht, ← sub_mul, unitsOfOne, rounded_mul_two_pow]
  constructor
  · rintro rfl
    have hlt := h.slowest 6000 (by decide) (by decide)
    rw [hdistance le_rfl, hdistance (by decide)] at hlt
    exact lt_of_mul_lt_mul_right hlt hone.le
  · intro hlt
    by_contra hne
    have hslow : s ≤ 6000 := by
      have hnext : ∀ s ∈ predefinedSpeeds, s = 7000 ∨ s ≤ 6000 := by decide
      exact (hnext s h.mem).resolve_left hne
    have hle := h.least 7000 (by decide)
    rw [hdistance le_rfl, hdistance (by omega)] at hle
    have hless : rounded (m - s) ≤ rounded (m - 7000) := le_of_mul_le_mul_right hle hone
    have hmono : rounded (m - 6000) ≤ rounded (m - s) := rounded_le (by omega)
    omega

/-- The nearest speed by rounded distances is the nearest by exact ones, except for two ranges of
large numbers. -/
theorem isNearest_iff_of_rounded {n : ℤ} (hn : Fits n) {s : ℕ}
    (h : IsNearest (fun t : ℕ => rounded |t * unitsOfOne - n|) predefinedSpeeds s) :
    IsNearest (fun t : ℕ => |t * unitsOfOne - n|) predefinedSpeeds s ↔
      n < (2 ^ 63 + 2 ^ 13) * unitsOfOne ∨
        (2 ^ 64 + 2 ^ 13) * unitsOfOne ≤ n ∧ n ≤ 2 ^ 65 * unitsOfOne := by
  have hone := unitsOfOne_pos
  obtain hsmall | hlarge := lt_or_ge n (2 ^ 53 * unitsOfOne)
  · exact iff_of_true (isNearest_of_rounded hn hsmall h) (.inl (by omega))
  obtain ⟨m, hm, hlow, rfl⟩ := exists_whole hn hlarge
  have hfastest := isNearest_fastest (n := m * unitsOfOne)
    (mul_le_mul_of_nonneg_right (by omega) hone.le)
  have hunique : IsNearest (fun t : ℕ => |t * unitsOfOne - m * unitsOfOne|) predefinedSpeeds s ↔
      s = 7000 := ⟨fun hs => hs.unique hfastest, fun hs => hs ▸ hfastest⟩
  rw [hunique, eq_fastest_iff hlow h, rounded_distances_lt_iff hm hlow, mul_lt_mul_iff_left₀ hone,
    mul_le_mul_iff_left₀ hone, mul_le_mul_iff_left₀ hone]

/-! ### Values of quantities -/

/-- The exact value of a quantity, unless it is infinite or not a number. -/
def Value.Quantity.value? : Value.Quantity → Option ℚ
  | .whole n => some n
  | .real x =>
    match exact x with
    | .finite d => some d.value
    | _ => none

/-- The units of a finite quantity. -/
theorem Value.Quantity.hasUnits_of_value? {x : Float} {q : ℚ} (h : value? (.real x) = some q) :
    ∃ n : ℤ, HasUnits x n ∧ (n : ℚ) = q * unitsOfOne := by
  rw [value?] at h
  split at h
  · rename_i d hd
    obtain rfl := Option.some.inj h
    exact ⟨d.units, ⟨d, hd, rfl⟩, units_eq_value_mul (normal_of_ofBits hd)⟩
  · cases h

/-- A speed of the table is nearest to a number, and is the slowest of several. -/
def IsNearestSpeed (q : ℚ) (s : ℕ) : Prop :=
  IsNearest (fun t : ℕ => |(t : ℚ) - q|) predefinedSpeeds s

/-- The nearest speed to a number is that to its units. -/
theorem isNearestSpeed_iff {q : ℚ} {n : ℤ} (h : (n : ℚ) = q * unitsOfOne) {s : ℕ} :
    IsNearestSpeed q s ↔
      IsNearest (fun t : ℕ => |t * unitsOfOne - n|) predefinedSpeeds s := by
  have hone : (0 : ℚ) < unitsOfOne := by exact_mod_cast unitsOfOne_pos
  have hscale (t : ℕ) : ((|t * unitsOfOne - n| : ℤ) : ℚ) = |(t : ℚ) - q| * unitsOfOne := by
    push_cast
    rw [h, ← sub_mul, abs_mul, abs_of_pos hone]
  refine isNearest_congr fun s t => ?_
  rw [← mul_le_mul_iff_left₀ hone, ← hscale, ← hscale, Int.cast_le]

/-- A greater number has no slower nearest speed. -/
theorem IsNearestSpeed.le {q q' : ℚ} {s s' : ℕ} (h : IsNearestSpeed q s) (h' : IsNearestSpeed q' s')
    (hle : q ≤ q') : s ≤ s' := by
  by_contra hlt
  rw [not_le] at hlt
  have hslower := h.slowest s' h'.mem hlt
  have hleast := h'.least s h.mem
  have hspeeds : (s' : ℚ) < s := by exact_mod_cast hlt
  -- The first number is above the middle of the two speeds, and the second is not.
  have habove : (s' : ℚ) + s < 2 * q := by
    by_contra hmiddle
    rw [abs_of_nonneg (by linarith), lt_abs] at hslower
    obtain hslower | hslower := hslower <;> linarith
  have hbelow : 2 * q' ≤ (s' : ℚ) + s := by
    by_contra hmiddle
    rw [abs_of_neg (by linarith), le_abs] at hleast
    obtain hleast | hleast := hleast <;> linarith
  linarith

/-- Quantities whose distances from the speeds are in the order of the exact ones: whole numbers,
and floating-point numbers below `2^63 + 2^13` and from `2^64 + 2^13` to `2^65`. -/
def Value.Quantity.Discerns : Value.Quantity → ℚ → Prop
  | .whole _, _ => True
  | .real _, q => q < 2 ^ 63 + 2 ^ 13 ∨ 2 ^ 64 + 2 ^ 13 ≤ q ∧ q ≤ 2 ^ 65

/-- The speed for a whole number is always the nearest. -/
theorem isNearestSpeed_whole (n : ℤ) : IsNearestSpeed n (nearestSpeed (.whole n)) := by
  have hnearest := isNearest_nearestSpeed (v := .whole n) (f := fun t : ℕ => |(t : ℤ) - n|)
    fun s _ t _ => speedDistance_whole_lt_iff n s t
  refine (isNearest_congr fun s t => ?_).mp hnearest
  exact_mod_cast Iff.rfl

/-- The speed for a number is the nearest exactly when rounding tells the distances apart. -/
theorem isNearestSpeed_iff_discerns {w : Value.Quantity} {q : ℚ} (h : w.value? = some q) :
    IsNearestSpeed q (nearestSpeed w) ↔ w.Discerns q := by
  cases w with
  | whole n =>
    obtain rfl := Option.some.inj h
    exact iff_of_true (isNearestSpeed_whole n) trivial
  | real x =>
    obtain ⟨n, hx, hn⟩ := Value.Quantity.hasUnits_of_value? h
    have hone : (0 : ℚ) < unitsOfOne := by exact_mod_cast unitsOfOne_pos
    have hlt (c : ℤ) : n < c * unitsOfOne ↔ q < c := by
      rw [← mul_lt_mul_iff_left₀ hone, ← hn]
      exact_mod_cast Iff.rfl
    have hgt (c : ℤ) : n ≤ c * unitsOfOne ↔ q ≤ c := by
      rw [← mul_le_mul_iff_left₀ hone, ← hn]
      exact_mod_cast Iff.rfl
    have hrounded := isNearest_nearestSpeed (v := .real x)
      (f := fun t : ℕ => rounded |t * unitsOfOne - n|)
      fun s hs t ht => speedDistance_real_lt_iff hx hs ht
    rw [isNearestSpeed_iff hn, isNearest_iff_of_rounded hx.fits hrounded, ← not_lt, hlt, hlt, hgt,
      not_lt, Value.Quantity.Discerns]
    norm_num

/-! ### Speeds of the table -/

/-- A number is the same value as a whole number if it is the same number. -/
theorem Value.same_int_iff {v : Value} {w : Value.Quantity} {q : ℚ} (hv : v.quantity = .ok w)
    (hq : w.value? = some q) (n : ℤ) : v.same (.int n) = true ↔ q = n := by
  have hwhole (m : ℤ) : (m == n) = true ↔ (m : ℚ) = n := by rw [beq_iff_eq, Int.cast_inj]
  cases v with
  | atom a =>
    cases a with
    | bool b =>
      obtain rfl := Except.ok.inj hv
      obtain rfl := Option.some.inj hq
      exact hwhole _
    | int m =>
      obtain rfl := Except.ok.inj hv
      obtain rfl := Option.some.inj hq
      exact hwhole m
    | float x =>
      obtain rfl := Except.ok.inj hv
      obtain ⟨k, hx, hk⟩ := Value.Quantity.hasUnits_of_value? hq
      have hone : (unitsOfOne : ℚ) ≠ 0 := by exact_mod_cast unitsOfOne_ne_zero
      have hunits : compareInt x n = some .eq ↔ k = n * unitsOfOne := by
        rw [compareInt_eq_iff]
        exact ⟨fun h => hx.unique h, fun h => h ▸ hx⟩
      change ((compareInt x n == some .eq) = true) ↔ _
      rw [beq_iff_eq, hunits, ← mul_left_inj' hone, ← hk]
      exact_mod_cast Iff.rfl
    | null | text s | date y m d | moment y m d c => cases hv
  | list items => cases hv
  | map entries => cases hv

/-- The speed that is found for a number is the nearest of the table, and the slowest of several,
unless the number is a floating-point one so large that its distances from the two fastest speeds
are rounded to the same. Among all other numbers a greater one has no slower speed, and a whole
number has the same speed in both forms. A speed is marked as exact if the number is the speed. -/
theorem nearestSpeed_nearest_iff (v : Value) (w : Value.Quantity) (q : ℚ)
    (hv : v.quantity = .ok w) (hq : w.value? = some q) :
    (IsNearestSpeed q (nearestSpeed w) ↔ w.Discerns q) ∧
      (∀ w' q', w'.value? = some q' → w.Discerns q → w'.Discerns q' → q ≤ q' →
        nearestSpeed w ≤ nearestSpeed w') ∧
      (∀ n : ℤ, q = n → (nearestSpeed w = nearestSpeed (.whole n) ↔ w.Discerns q)) ∧
        ∃ isExact, Speed.ofTool v = .ok (.ofTable (nearestSpeed w) isExact) ∧
          (isExact = true ↔ q = nearestSpeed w) := by
  have hnearest := isNearestSpeed_iff_discerns hq
  refine ⟨hnearest, ?_, ?_, v.same (.int (nearestSpeed w)), ?_, Value.same_int_iff hv hq _⟩
  · intro w' q' hq' hw hw' hle
    exact (hnearest.mpr hw).le ((isNearestSpeed_iff_discerns hq').mpr hw') hle
  · rintro n rfl
    have hwhole := isNearestSpeed_whole n
    rw [← hnearest]
    exact ⟨fun h => h ▸ hwhole, fun h => h.unique hwhole⟩
  · simp only [Speed.ofTool, hv]
    rfl

/-- The least number whose distances from the two fastest speeds are rounded to the same. -/
theorem nearestSpeed_nearest_iff_large :
    Value.quantity (.float 9223372036854784000.0) = .ok (.real 9223372036854784000.0) ∧
      Value.Quantity.value? (.real 9223372036854784000.0) = some 9223372036854784000 ∧
        ¬IsNearestSpeed 9223372036854784000 (nearestSpeed (.real 9223372036854784000.0)) ∧
          nearestSpeed (.real 9223372036854784000.0) ≠
            nearestSpeed (.whole 9223372036854784000) := by
  have hexact : exact 9223372036854784000.0 = .finite ⟨false, 2 ^ 52 + 4, 11⟩ := by decide
  have hvalue : Value.Quantity.value? (.real 9223372036854784000.0) = some 9223372036854784000 := by
    rw [Value.Quantity.value?, hexact]
    norm_num [Dyadic.value]
  have hlarge : ¬Value.Quantity.Discerns (.real 9223372036854784000.0) 9223372036854784000 := by
    norm_num [Value.Quantity.Discerns]
  obtain ⟨hnearest, -, hwhole, -⟩ := nearestSpeed_nearest_iff (.float 9223372036854784000.0)
    (.real 9223372036854784000.0) 9223372036854784000 rfl hvalue
  exact ⟨rfl, hvalue, hnearest.not.mpr hlarge,
    fun h => hlarge ((hwhole 9223372036854784000 (by norm_num)).mp h)⟩

end RobotProgram
