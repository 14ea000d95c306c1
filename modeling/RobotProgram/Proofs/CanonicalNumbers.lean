import RobotProgram.Proofs.HalfEven
import RobotProgram.Proofs.Literals
import RobotProgram.Value.Format

/-!
# Canonical numbers in program text

A finite number is written in the one canonical form of its rounded value: no idle zeros at either
end, and no sign on a zero (`IsCanonical`). `literalValue` reads a literal as the rational that it
denotes, and `unitsLiteral` writes a whole number of units of `10^-places`. Zeros at the end of a
fraction denote nothing (`fractionValue_rdropWhile`), so what is written denotes these units
(`literalValue_unitsLiteral`), and a number is written as its nearest units (`render_eq`).
Everything about the text follows from the units (`render_canonical`).
-/

namespace RobotProgram.Number

/-! ### What a literal denotes -/

/-- The rational that digits behind a point denote. -/
def fractionValue (ds : List Char) : ℚ := Nat.ofDigitChars 10 ds 0 / 10 ^ ds.length

/-- The rational that digits denote, with more digits behind a point. -/
def unsignedValue (cs : List Char) : ℚ :=
  Nat.ofDigitChars 10 (cs.takeWhile Char.isDigit) 0 +
    fractionValue ((cs.dropWhile Char.isDigit).drop 1)

/-- The rational that a decimal literal denotes. -/
def literalValue (s : String) : ℚ :=
  match s.toList with
  | '-' :: cs => -unsignedValue cs
  | cs => unsignedValue cs

/-- A whole part and a fraction add up. -/
theorem unsignedValue_append {whole ds : List Char} (hwhole : ∀ c ∈ whole, c.isDigit = true) :
    unsignedValue (whole ++ fractionText ds) = Nat.ofDigitChars 10 whole 0 + fractionValue ds := by
  have hpoint : (fractionText ds).takeWhile Char.isDigit = [] ∧
      (fractionText ds).dropWhile Char.isDigit = fractionText ds ∧
      (fractionText ds).drop 1 = ds := by
    unfold fractionText
    split_ifs with h
    · exact ⟨rfl, rfl, h.symm⟩
    · exact ⟨rfl, rfl, rfl⟩
  obtain ⟨htake, hdrop, htail⟩ := hpoint
  rw [unsignedValue, List.takeWhile_append_of_pos hwhole, List.dropWhile_append_of_pos hwhole,
    htake, hdrop, htail, List.append_nil]

/-- A literal with a sign has the value of its digits, with the sign. -/
theorem literalValue_ofList (negative : Bool) {whole : List Char} (fraction : List Char)
    (hwhole : isDigits whole = true) :
    literalValue (String.ofList (signText negative ++ (whole ++ fraction))) =
      if negative then -unsignedValue (whole ++ fraction)
      else unsignedValue (whole ++ fraction) := by
  unfold literalValue
  rw [String.toList_ofList]
  cases negative with
  | true => rfl
  | false =>
    -- A digit is no sign.
    change (match whole ++ fraction with
      | '-' :: cs => -unsignedValue cs
      | cs => unsignedValue cs) = unsignedValue (whole ++ fraction)
    split
    · rename_i cs hcs
      cases whole with
      | nil => cases hwhole
      | cons c whole =>
        obtain ⟨rfl, -⟩ := List.cons.inj hcs
        cases (isDigits_iff.mp hwhole).2 '-' (by simp)
    · rfl

/-- Zeros at the end of a fraction denote nothing. -/
theorem fractionValue_rdropWhile (ds : List Char) :
    fractionValue (ds.rdropWhile (· == '0')) = fractionValue ds := by
  induction ds using List.reverseRecOn with
  | nil => rfl
  | append_singleton ds c ih =>
    by_cases hc : (c == '0') = true
    · rw [List.rdropWhile_concat_pos (fun d => d == '0') ds c hc, ih]
      obtain rfl : c = '0' := by simpa using hc
      simp only [fractionValue, Nat.ofDigitChars_append, Nat.ofDigitChars_cons,
        Nat.ofDigitChars_nil, List.length_append, List.length_singleton, pow_succ, Nat.sub_self,
        Nat.add_zero, Nat.cast_mul, Nat.cast_ofNat]
      rw [mul_comm, mul_div_mul_right _ _ (by norm_num)]
    · rw [List.rdropWhile_concat_neg (fun d => d == '0') ds c hc]

/-! ### Units of the last place -/

/-- A fraction has as many digits as it has places. -/
theorem length_fractionDigits {places n : ℕ} (h : places ≠ 0) :
    (fractionDigits places n).length = places := by
  have hlength : (Nat.toDigits 10 (n % Nat.pow 10 places)).length ≤ places :=
    (Nat.length_toDigits_le_iff (by decide) (by omega)).mpr
      (Nat.mod_lt _ (Nat.pow_pos (by decide)))
  simp only [fractionDigits, List.length_append, List.length_replicate]
  omega

/-- The digits of a fraction are those of what remains after the units. -/
theorem ofDigitChars_fractionDigits (places n : ℕ) :
    Nat.ofDigitChars 10 (fractionDigits places n) 0 = n % 10 ^ places := by
  simp only [fractionDigits, Nat.ofDigitChars_append, Nat.ofDigitChars_replicate_zero, mul_zero]
  exact Nat.ofDigitChars_ten_toDigits

/-- The digits behind the point, which are there even where no decimals are written. -/
theorem fractionValue_fractionDigits (places n : ℕ) :
    fractionValue (fractionDigits places n) = (n % 10 ^ places : ℕ) / 10 ^ places := by
  by_cases hplaces : places = 0
  · subst hplaces
    simp [fractionValue, ofDigitChars_fractionDigits, Nat.mod_one]
  · rw [fractionValue, ofDigitChars_fractionDigits, length_fractionDigits hplaces]

/-- A number of units of `10^-places` in canonical form. -/
def unitsLiteral (places : ℕ) (k : ℤ) : String :=
  String.ofList (signText (decide (k < 0)) ++
    (Nat.toDigits 10 (k.natAbs / 10 ^ places) ++ fractionText (decimals places k.natAbs)))

/-- The digits around the point denote the units. -/
theorem unsignedValue_units (places n : ℕ) :
    unsignedValue (Nat.toDigits 10 (n / 10 ^ places) ++ fractionText (decimals places n)) =
      n / 10 ^ places := by
  rw [unsignedValue_append (isDigits_iff.mp (isDigits_toDigits _)).2, decimals,
    fractionValue_rdropWhile, fractionValue_fractionDigits, Nat.ofDigitChars_ten_toDigits,
    ← mul_div_cancel_right₀ ((n / 10 ^ places : ℕ) : ℚ)
      (pow_ne_zero places (by norm_num : (10 : ℚ) ≠ 0)),
    ← add_div]
  congr 1
  exact_mod_cast Nat.div_add_mod' n (10 ^ places)

/-- The literal of a number of units has their value. -/
theorem literalValue_unitsLiteral (places : ℕ) (k : ℤ) :
    literalValue (unitsLiteral places k) = k / 10 ^ places := by
  rw [unitsLiteral, literalValue_ofList _ _ (isDigits_toDigits _), unsignedValue_units]
  have hcast : ((k.natAbs : ℕ) : ℚ) = |(k : ℚ)| := by
    rw [← Int.cast_abs, Int.abs_eq_natAbs, Int.cast_natCast]
  rw [hcast]
  by_cases hk : k < 0
  · rw [if_pos (by simpa using hk), abs_of_neg (by exact_mod_cast hk), neg_div, neg_neg]
  · rw [if_neg (by simpa using hk), abs_of_nonneg (by exact_mod_cast not_lt.mp hk)]

/-- Different units are written differently. -/
theorem unitsLiteral_inj {places : ℕ} {k k' : ℤ} :
    unitsLiteral places k = unitsLiteral places k' ↔ k = k' := by
  constructor
  · intro h
    have hvalue := congrArg literalValue h
    rw [literalValue_unitsLiteral, literalValue_unitsLiteral,
      div_left_inj' (pow_ne_zero _ (by norm_num))] at hvalue
    exact_mod_cast hvalue
  · rintro rfl
    rfl

/-! ### Canonical form -/

/-- A whole part: zero, or digits that do not start with a zero. -/
def IsCanonicalWhole (cs : List Char) : Prop :=
  cs = ['0'] ∨ ∃ c ds, cs = c :: ds ∧ c.isDigit = true ∧ c ≠ '0' ∧ ∀ d ∈ ds, d.isDigit = true

/-- A fraction: nothing, or a point and at most `places` digits that do not end with a zero. -/
def IsCanonicalFraction (places : ℕ) (cs : List Char) : Prop :=
  cs = [] ∨ ∃ ds c, cs = '.' :: (ds ++ [c]) ∧ (∀ d ∈ ds, d.isDigit = true) ∧ c.isDigit = true ∧
    c ≠ '0' ∧ ds.length + 1 ≤ places

/-- A decimal literal in canonical form with at most `places` decimals: perhaps a sign, a whole part
and a fraction. Zero has no sign. -/
def IsCanonical (places : ℕ) (s : String) : Prop :=
  s ≠ "-0" ∧ ∃ negative whole fraction, s.toList = signText negative ++ (whole ++ fraction) ∧
    IsCanonicalWhole whole ∧ IsCanonicalFraction places fraction

/-- A digit that is not zero is written as one. -/
theorem isDigit_digitChar :
    ∀ n < 10, 0 < n → n.digitChar.isDigit = true ∧ n.digitChar ≠ '0' := by decide

/-- A whole number is written without needless zeros. -/
theorem isCanonicalWhole_toDigits (n : ℕ) : IsCanonicalWhole (Nat.toDigits 10 n) := by
  induction n using Nat.strongRecOn with
  | _ n ih =>
    obtain rfl | hn := Nat.eq_zero_or_pos n
    · exact .inl (Nat.toDigits_zero 10)
    · right
      by_cases hsmall : n < 10
      · obtain ⟨hdigit, hne⟩ := isDigit_digitChar n hsmall hn
        exact ⟨n.digitChar, [], Nat.toDigits_of_lt_base hsmall, hdigit, hne, nofun⟩
      · -- The last digit stands behind the digits of the tenth part.
        have hlast : (n % 10).digitChar.isDigit = true :=
          (isDigits_iff.mp (isDigits_toDigits (n % 10))).2 _
            (by rw [Nat.toDigits_of_lt_base (Nat.mod_lt n (by decide))]; simp)
        rw [Nat.toDigits_of_base_le (by decide) (not_lt.mp hsmall)]
        obtain hzero | ⟨c, ds, hcs, hdigit, hne, hds⟩ := ih (n / 10) (by omega)
        · have hvalue : Nat.ofDigitChars 10 (Nat.toDigits 10 (n / 10)) 0 = 0 := by
            rw [hzero]
            rfl
          rw [Nat.ofDigitChars_ten_toDigits] at hvalue
          omega
        · refine ⟨c, ds ++ [(n % 10).digitChar], by rw [hcs]; rfl, hdigit, hne, fun d hd => ?_⟩
          obtain hd | hd := List.mem_append.mp hd
          · exact hds d hd
          · rw [List.mem_singleton.mp hd]
            exact hlast

/-- A fraction is written without needless zeros. -/
theorem isCanonicalFraction_decimals (places n : ℕ) :
    IsCanonicalFraction places (fractionText (decimals places n)) := by
  unfold fractionText
  split_ifs with hnil
  · exact .inl rfl
  · right
    have hlast : ¬((decimals places n).getLast hnil == '0') = true :=
      List.rdropWhile_last_not (fun d => d == '0') _ hnil
    refine ⟨(decimals places n).dropLast, (decimals places n).getLast hnil, ?_, ?_, ?_, ?_, ?_⟩
    · rw [List.dropLast_append_getLast]
    · exact fun d hd => isDigit_of_mem_decimals (List.dropLast_subset _ hd)
    · exact isDigit_of_mem_decimals (List.getLast_mem hnil)
    · simpa using hlast
    · have hpos := List.length_pos_of_ne_nil hnil
      have hplaces : places ≠ 0 := by
        rintro rfl
        exact hnil (decimals_zero n)
      have hlength : (decimals places n).length ≤ (fractionDigits places n).length :=
        (List.rdropWhile_prefix _ _).length_le
      rw [length_fractionDigits hplaces] at hlength
      rw [List.length_dropLast]
      omega

/-- Zero is written as one digit. -/
theorem zero_digits (places : ℕ) :
    Nat.toDigits 10 (0 / 10 ^ places) ++ fractionText (decimals places 0) = ['0'] := by
  have hdecimals : decimals places 0 = [] := by
    rw [decimals, List.rdropWhile_eq_nil_iff]
    intro c hc
    rw [fractionDigits, Nat.zero_mod, Nat.toDigits_zero, List.mem_append, List.mem_replicate,
      List.mem_singleton] at hc
    obtain ⟨-, rfl⟩ | rfl := hc <;> rfl
  rw [hdecimals, Nat.zero_div, Nat.toDigits_zero]
  rfl

/-- No units are written as zero. -/
theorem unitsLiteral_zero (places : ℕ) : unitsLiteral places 0 = "0" := by
  rw [unitsLiteral, Int.natAbs_zero, zero_digits]
  rfl

/-- Units that are not zero are not written as a text that denotes zero. -/
theorem unitsLiteral_ne {places : ℕ} {k : ℤ} {s : String} (hk : k ≠ 0) (hs : literalValue s = 0) :
    unitsLiteral places k ≠ s := by
  rintro rfl
  rw [literalValue_unitsLiteral, div_eq_zero_iff, Int.cast_eq_zero] at hs
  exact hs.elim hk (pow_ne_zero _ (by norm_num))

/-- The value of zero with a sign. -/
theorem literalValue_negativeZero : literalValue "-0" = 0 := by
  simp [literalValue, unsignedValue, fractionValue, Nat.ofDigitChars]

/-- The value of no text. -/
theorem literalValue_empty : literalValue "" = 0 := by
  simp [literalValue, unsignedValue, fractionValue]

/-- The literal of a number of units is canonical. -/
theorem isCanonical_unitsLiteral (places : ℕ) (k : ℤ) :
    IsCanonical places (unitsLiteral places k) := by
  refine ⟨?_, _, _, _, String.toList_ofList, isCanonicalWhole_toDigits _,
    isCanonicalFraction_decimals _ _⟩
  by_cases hk : k = 0
  · rw [hk, unitsLiteral_zero]
    decide
  · exact unitsLiteral_ne hk literalValue_negativeZero

/-! ### Rendering -/

/-- The units that a number is written with. -/
theorem nearestEven_value (places : ℕ) (d : Dyadic) :
    nearestEven (d.value * 10 ^ places) =
      if d.negative then -(units places d : ℤ) else units places d := by
  have hunits : nearestEven ((d.numerator : ℚ) / d.denominator * 10 ^ places) = units places d := by
    rw [units, ← nearestEven_div _ d.denominator_pos, div_mul_eq_mul_div]
    congr 2
    push_cast [Nat.pow_eq]
    rfl
  rw [Dyadic.value_eq]
  cases d.negative with
  | true => rw [if_pos rfl, if_pos rfl, neg_mul, nearestEven_neg, hunits]
  | false => exact hunits

/-- A finite number is written as its nearest units. -/
theorem render_eq {x : Float} {d : Dyadic} (h : exact x = .finite d) (places : ℕ) :
    render places x = unitsLiteral places (nearestEven (d.value * 10 ^ places)) := by
  rw [nearestEven_value]
  unfold render
  rw [dropIdleFraction_fixed h]
  generalize units places d = n
  simp only [Nat.pow_eq]
  obtain rfl | hn := Nat.eq_zero_or_pos n
  · -- What rounds to zero loses its sign.
    have hzero : (if d.negative then -((0 : ℕ) : ℤ) else (0 : ℕ)) = 0 := by simp
    rw [hzero, unitsLiteral_zero, zero_digits]
    cases d.negative <;> rfl
  · have hsign : decide ((if d.negative then -(n : ℤ) else n) < 0) = d.negative := by
      cases d.negative <;> simp [hn]
    have habs : (if d.negative then -(n : ℤ) else n).natAbs = n := by
      cases d.negative <;> simp
    have hne : (if d.negative then -(n : ℤ) else n) ≠ 0 := by omega
    have htext : String.ofList (signText d.negative ++ (Nat.toDigits 10 (n / 10 ^ places) ++
        fractionText (decimals places n))) =
          unitsLiteral places (if d.negative then -(n : ℤ) else n) := by
      rw [unitsLiteral, hsign, habs]
    rw [htext, if_neg]
    simp only [Bool.or_eq_true, beq_iff_eq, not_or]
    exact ⟨unitsLiteral_ne hne literalValue_negativeZero, unitsLiteral_ne hne literalValue_empty⟩

/-- The text of a rational with at most `places` decimals. -/
def rationalText (places : ℕ) (q : ℚ) : String :=
  unitsLiteral places (nearestEven (q * 10 ^ places))

/-- A rational that is a whole number of units is written as these. -/
theorem rationalText_units (places : ℕ) (k : ℤ) :
    rationalText places (k / 10 ^ places) = unitsLiteral places k := by
  rw [rationalText, div_mul_cancel₀ _ (pow_ne_zero _ (by norm_num)), nearestEven_intCast]

/-- A number that is at least as near to a multiple of `10^-places` as one that is rounded to it is
rounded to it too. -/
theorem nearestEven_eq_of_near {places : ℕ} {q q' : ℚ} {k : ℤ}
    (hk : nearestEven (q * 10 ^ places) = k)
    (h : |q' - k / 10 ^ places| ≤ |q - k / 10 ^ places|) : nearestEven (q' * 10 ^ places) = k := by
  have hpow : (0 : ℚ) < 10 ^ places := by positivity
  -- Distances in units of the last place.
  have hscale (r : ℚ) : |r * 10 ^ places - k| = |r - k / 10 ^ places| * 10 ^ places := by
    rw [← abs_of_pos hpow, ← abs_mul, abs_of_pos hpow, sub_mul, div_mul_cancel₀ _ hpow.ne']
  rw [← hk]
  apply nearestEven_eq_of_abs_le
  rw [hk, hscale, hscale]
  exact mul_le_mul_of_nonneg_right h hpow.le

/-- A finite number is written in the canonical form of its exact value, rounded to a multiple of
`10^-places` with a half going to the even multiple. So two numbers are written alike exactly when
they round to the same multiple, and the order of numbers is kept. What is written denotes a
rational that is written the same way again, and so is every number that is at least as near to that
rational as the first one, such as the nearest. -/
theorem render_canonical {x : Float} {d : Dyadic} (h : exact x = .finite d) (places : ℕ) :
    Value.format (.int places) (.float x) = .ok (render places x) ∧
    IsCanonical places (render places x) ∧
    literalValue (render places x) = nearestEven (d.value * 10 ^ places) / 10 ^ places ∧
    (∀ {y : Float} {e : Dyadic}, exact y = .finite e →
      (render places x = render places y ↔
        nearestEven (d.value * 10 ^ places) = nearestEven (e.value * 10 ^ places)) ∧
      (d.value ≤ e.value → literalValue (render places x) ≤ literalValue (render places y)) ∧
      (|e.value - literalValue (render places x)| ≤ |d.value - literalValue (render places x)| →
        render places y = render places x)) ∧
    render places x = rationalText places d.value ∧
    rationalText places (literalValue (render places x)) = render places x := by
  have hpow : (0 : ℚ) < 10 ^ places := by positivity
  have hvalue :
      literalValue (render places x) = nearestEven (d.value * 10 ^ places) / 10 ^ places := by
    rw [render_eq h, literalValue_unitsLiteral]
  refine ⟨?_, ?_, hvalue, fun {y e} hy => ⟨?_, fun hle => ?_, fun hnear => ?_⟩,
    render_eq h places, ?_⟩
  · have hplaces : Value.places (.int places) = .ok places := by
      rw [Value.places, if_neg (by omega), Int.toNat_natCast]
    change (fun n => Number.render n x) <$> Value.places (.int places) = _
    rw [hplaces, Outcome.ok_map]
  · rw [render_eq h]
    exact isCanonical_unitsLiteral _ _
  · rw [render_eq h, render_eq hy, unitsLiteral_inj]
  · rw [hvalue, render_eq hy, literalValue_unitsLiteral]
    have hscaled : d.value * 10 ^ places ≤ e.value * 10 ^ places :=
      mul_le_mul_of_nonneg_right hle hpow.le
    exact div_le_div_of_nonneg_right (by exact_mod_cast nearestEven_le hscaled) hpow.le
  · rw [hvalue] at hnear
    rw [render_eq h, render_eq hy, nearestEven_eq_of_near rfl hnear]
  · rw [hvalue, rationalText_units, render_eq h]

/-- A negative number that is rounded to zero, and a half that goes down to the even digit. -/
theorem render_canonical_half :
    exact (-0.125) = .finite ⟨true, 2 ^ 52, -55⟩ ∧
      IsCanonical 2 (render 2 (-0.125)) ∧ literalValue (render 2 (-0.125)) = -12 / 100 ∧
      render 0 (-0.125) = "0" := by
  have h : exact (-0.125) = .finite ⟨true, 2 ^ 52, -55⟩ := by decide +kernel
  obtain ⟨-, hcanonical, hvalue, -⟩ := render_canonical h 2
  have hunits : nearestEven ((⟨true, 2 ^ 52, -55⟩ : Dyadic).value * 10 ^ 2) = -12 := by
    rw [nearestEven_value]
    decide +kernel
  refine ⟨h, hcanonical, ?_, by decide +kernel⟩
  rw [hvalue, hunits]
  norm_num

end RobotProgram.Number
