import Mathlib
import TermLang.Number.Dyadic
import TermLang.Number.Decimal

/-!
# Rounding depends on the quotient only

`Number.nearestBits` takes a magnitude as a quotient of natural numbers, and its search for the last
place starts from the lengths of the two numbers. Here that start is shown not to matter: the place
found is the only one at which the quotient has 53 bits, or fewer at the least place there is. Two
spellings of one quotient are therefore rounded to the same bits, and a quotient that is a
significand at its own last place is not rounded at all.

Magnitudes are rational numbers here; the executable definitions stay in natural numbers.
-/

namespace TermLang.Number

/-- The one place where a positive quotient has 53 bits before the point, or fewer if the place is
the least one. -/
structure IsLastPlace (quotient : ℚ) (place : ℤ) : Prop where
  least : -1074 ≤ place
  below : quotient < 2 ^ (place + 53)
  full : place = -1074 ∨ 2 ^ (place + 52) ≤ quotient

/-- A larger place would leave the significand short, so there is only one last place. -/
theorem IsLastPlace.unique {quotient : ℚ} {place other : ℤ} (found : IsLastPlace quotient place)
    (alsoFound : IsLastPlace quotient other) : place = other := by
  have notBelow (lower higher : ℤ) (low : IsLastPlace quotient lower)
      (high : IsLastPlace quotient higher) : ¬ lower < higher := by
    intro less
    rcases high.full with atLeast | reached
    · have := low.least
      omega
    · have apart : (2 : ℚ) ^ (lower + 53) ≤ 2 ^ (higher + 52) :=
        zpow_le_zpow_right₀ (by norm_num) (by omega)
      exact absurd (low.below.trans_le apart) (not_lt.mpr reached)
  have left := notBelow place other found alsoFound
  have right := notBelow other place alsoFound found
  omega

/-- Scaling divides the quotient by the power of two and keeps the divisor positive. A power below
zero goes to the numerator instead. -/
theorem scaleDown_quotient (num den : Nat) (power : Int) (positive : 0 < den) :
    0 < (scaleDown num den power).2 ∧
      ((scaleDown num den power).1 : ℚ) / (scaleDown num den power).2 =
        (num : ℚ) / den / 2 ^ power := by
  cases power with
  | ofNat up =>
    refine ⟨Nat.mul_pos positive (Nat.pow_pos (by decide)), ?_⟩
    simp only [scaleDown, Nat.pow_eq, Nat.cast_mul, Nat.cast_pow, Nat.cast_ofNat,
      Int.ofNat_eq_natCast, zpow_natCast]
    rw [div_div]
  | negSucc down =>
    refine ⟨positive, ?_⟩
    simp only [scaleDown, Nat.pow_eq, Nat.cast_mul, Nat.cast_pow, Nat.cast_ofNat, zpow_negSucc]
    rw [div_inv_eq_mul]
    ring

/-- The lengths of two numbers give their quotient up to a factor of two either way. Each number
lies between the power of two of its length and the next one. -/
theorem quotient_between {num den : Nat} (nonzero : num ≠ 0) (positive : 0 < den) :
    (2 : ℚ) ^ ((Nat.log2 num : ℤ) - Nat.log2 den - 1) < (num : ℚ) / den ∧
      (num : ℚ) / den < 2 ^ ((Nat.log2 num : ℤ) - Nat.log2 den + 1) := by
  have denPositive : (0 : ℚ) < den := by exact_mod_cast positive
  have numLow : ((2 : ℚ) ^ (Nat.log2 num : ℤ)) ≤ num := by
    exact_mod_cast Nat.log2_self_le nonzero
  have numHigh : (num : ℚ) < 2 ^ ((Nat.log2 num : ℤ) + 1) := by
    exact_mod_cast Nat.lt_log2_self
  have denLow : ((2 : ℚ) ^ (Nat.log2 den : ℤ)) ≤ den := by
    exact_mod_cast Nat.log2_self_le (by omega)
  have denHigh : (den : ℚ) < 2 ^ ((Nat.log2 den : ℤ) + 1) := by
    exact_mod_cast Nat.lt_log2_self
  constructor
  · rw [lt_div_iff₀ denPositive]
    calc (2 : ℚ) ^ ((Nat.log2 num : ℤ) - Nat.log2 den - 1) * den
        < 2 ^ ((Nat.log2 num : ℤ) - Nat.log2 den - 1) * 2 ^ ((Nat.log2 den : ℤ) + 1) := by
          gcongr
      _ = 2 ^ (Nat.log2 num : ℤ) := by
          rw [← zpow_add₀ (by norm_num)]
          congr 1
          ring
      _ ≤ num := numLow
  · rw [div_lt_iff₀ denPositive]
    calc (num : ℚ) < 2 ^ ((Nat.log2 num : ℤ) + 1) := numHigh
      _ = 2 ^ ((Nat.log2 num : ℤ) - Nat.log2 den + 1) * 2 ^ (Nat.log2 den : ℤ) := by
          rw [← zpow_add₀ (by norm_num)]
          congr 1
          ring
      _ ≤ 2 ^ ((Nat.log2 num : ℤ) - Nat.log2 den + 1) * den := by
          gcongr

/-- A natural quotient reaches a bound exactly when the rational one does. -/
theorem le_div_iff_le_quotient {num den bound : Nat} (positive : 0 < den) :
    bound ≤ num / den ↔ (bound : ℚ) ≤ (num : ℚ) / den := by
  rw [Nat.le_div_iff_mul_le positive, le_div_iff₀ (by exact_mod_cast positive)]
  exact_mod_cast Iff.rfl

/-- The search finds the last place. Its first guess is at most one too small.

Proof: by `quotient_between` the quotient has 53 bits or one more before the point at the guess. The
search looks which it is and takes the next place in the second case; below the least place nothing
is looked for. -/
theorem lastPlace_spec {num den : Nat} (nonzero : num ≠ 0) (positive : 0 < den) :
    IsLastPlace ((num : ℚ) / den) (lastPlace num den) := by
  obtain ⟨above, below⟩ := quotient_between nonzero positive
  have powers (power : ℤ) : (0 : ℚ) < 2 ^ power := by positivity
  let guess : ℤ := max ((Nat.log2 num : ℤ) - Nat.log2 den - 53) (-1074)
  obtain ⟨scaledPositive, scaled⟩ := scaleDown_quotient num den guess positive
  have reached : 2 ^ 53 ≤ (scaleDown num den guess).1 / (scaleDown num den guess).2 ↔
      (2 : ℚ) ^ (guess + 53) ≤ (num : ℚ) / den := by
    rw [le_div_iff_le_quotient scaledPositive, scaled, le_div_iff₀ (powers guess),
      zpow_add₀ (by norm_num), mul_comm]
    norm_num
  have place : lastPlace num den =
      if (2 : ℚ) ^ (guess + 53) ≤ (num : ℚ) / den then guess + 1 else guess := by
    simp only [lastPlace, Nat.pow_eq]
    exact if_congr reached rfl rfl
  rw [place]
  split
  · rename_i long
    refine ⟨by omega, below.trans_le ?_, Or.inr ?_⟩
    · exact zpow_le_zpow_right₀ (by norm_num) (by omega)
    · rw [show guess + 1 + 52 = guess + 53 by ring]
      exact long
  · rename_i short
    refine ⟨by omega, not_le.mp short, ?_⟩
    rcases max_cases ((Nat.log2 num : ℤ) - Nat.log2 den - 53) (-1074) with
      ⟨isGuess, _⟩ | ⟨isLeast, _⟩
    · right
      have exponent : guess + 52 = (Nat.log2 num : ℤ) - Nat.log2 den - 1 := by
        have : guess = (Nat.log2 num : ℤ) - Nat.log2 den - 53 := isGuess
        omega
      rw [exponent]
      exact above.le
    · exact Or.inl isLeast

/-- A common factor does not change the nearest whole number: quotient and remainder grow with it,
and so does the half that is compared. -/
theorem roundQuotient_scale (num den factor : Nat) (positive : 0 < factor) :
    roundQuotient (num * factor) (den * factor) = roundQuotient num den := by
  have twice : 2 * (num * factor % (den * factor)) = 2 * (num % den) * factor := by
    rw [Nat.mul_mod_mul_right]
    ring
  simp only [roundQuotient, Nat.mul_div_mul_right num den positive, twice,
    Nat.mul_lt_mul_right positive]

/-- A whole number is nearest to itself. -/
theorem roundQuotient_exact (whole den : Nat) (positive : 0 < den) :
    roundQuotient (whole * den) den = whole := by
  simp [roundQuotient, Nat.mul_div_cancel whole positive, positive]

/-- Equal quotients round to the same whole number: both are put over the product of the two
divisors. -/
theorem roundQuotient_congr {num den num' den' : Nat} (positive : 0 < den) (positive' : 0 < den')
    (same : (num : ℚ) / den = (num' : ℚ) / den') :
    roundQuotient num den = roundQuotient num' den' := by
  have crossed : num * den' = num' * den := by
    rw [div_eq_div_iff (by positivity) (by positivity)] at same
    exact_mod_cast same
  rw [← roundQuotient_scale num den den' positive', crossed, Nat.mul_comm den den',
    roundQuotient_scale num' den' den positive]

/-- Equal quotients have the same nearest bits. The last place is determined by the quotient alone,
and so is the nearest whole number there. -/
theorem nearestBits_congr {num den num' den' : Nat} (positive : 0 < den) (positive' : 0 < den')
    (same : (num : ℚ) / den = (num' : ℚ) / den') : nearestBits num den = nearestBits num' den' := by
  have crossed : num * den' = num' * den := by
    rw [div_eq_div_iff (by positivity) (by positivity)] at same
    exact_mod_cast same
  by_cases zero : num = 0
  · have alsoZero : num' = 0 := by
      rw [zero, Nat.zero_mul] at crossed
      rcases Nat.mul_eq_zero.mp crossed.symm with isZero | isZero
      · exact isZero
      · omega
    simp [nearestBits, zero, alsoZero]
  · have alsoNonzero : num' ≠ 0 := by
      rintro rfl
      rw [Nat.zero_mul] at crossed
      rcases Nat.mul_eq_zero.mp crossed with isZero | isZero <;> omega
    have place : lastPlace num den = lastPlace num' den' := by
      have found := lastPlace_spec zero positive
      rw [same] at found
      exact found.unique (lastPlace_spec alsoNonzero positive')
    obtain ⟨scaledPositive, scaled⟩ := scaleDown_quotient num den (lastPlace num den) positive
    obtain ⟨scaledPositive', scaled'⟩ :=
      scaleDown_quotient num' den' (lastPlace num' den') positive'
    have rounded := roundQuotient_congr scaledPositive scaledPositive'
      (by rw [scaled, scaled', same, place])
    simp only [nearestBits, zero, alsoNonzero, if_false]
    rw [rounded, place]

/-- A significand that stands at its own last place is not rounded. Its quotient at that place is
whole, and a whole number is nearest to itself. -/
theorem nearestBits_exact {num den significand : Nat} {place : ℤ} (positive : 0 < den)
    (value : (num : ℚ) / den = significand * 2 ^ place) (least : -1074 ≤ place)
    (below : significand < 2 ^ 53) (full : place = -1074 ∨ 2 ^ 52 ≤ significand) :
    nearestBits num den = (place + 1074).toNat * Nat.pow 2 52 + significand := by
  have power : (0 : ℚ) < 2 ^ place := by positivity
  have denPositive : (0 : ℚ) < den := by exact_mod_cast positive
  by_cases zero : num = 0
  · have noSignificand : significand = 0 := by
      rw [zero, Nat.cast_zero, zero_div] at value
      rcases mul_eq_zero.mp value.symm with isZero | isZero
      · exact_mod_cast isZero
      · exact absurd isZero power.ne'
    have atLeast : place = -1074 := by
      rcases full with isLeast | reached
      · exact isLeast
      · omega
    simp [nearestBits, zero, noSignificand, atLeast]
  · have isLast : IsLastPlace ((num : ℚ) / den) place := by
      refine ⟨least, ?_, full.imp_right fun reached => ?_⟩
      · rw [value, add_comm, zpow_add₀ (by norm_num)]
        gcongr
        exact_mod_cast below
      · rw [value, add_comm, zpow_add₀ (by norm_num)]
        gcongr
        exact_mod_cast reached
    have found : lastPlace num den = place := (lastPlace_spec zero positive).unique isLast
    obtain ⟨scaledPositive, scaled⟩ := scaleDown_quotient num den place positive
    have whole : (scaleDown num den place).1 = significand * (scaleDown num den place).2 := by
      rw [value, mul_div_cancel_right₀ _ power.ne', div_eq_iff (by positivity)] at scaled
      exact_mod_cast scaled
    simp only [nearestBits, zero, if_false, found, whole,
      roundQuotient_exact significand _ scaledPositive]

end TermLang.Number
