import Mathlib
import TermLang.Number.Layout
import TermLang.Proofs.Number.Double
import TermLang.Proofs.Number.Nearest
import TermLang.Proofs.Reader.Grammar

/-!
# Numbers are written as numerals that read back

Reading a decimal depends on its sign and its magnitude only, so a spelling may move zeros between
the digits and the exponent, or put a point among the digits, without changing what is read. A
finite double is the nearest one to its own exact value. Hence the digits that the search for a
short spelling settles on read back: either the search tested them, or they are the exact expansion.

That no shorter spelling reads back is not shown here; only the way back is.
-/

namespace TermLang

/-- The magnitude of a decimal. -/
def Decimal.magnitude (decimal : Decimal) : ℚ := decimal.digits * 10 ^ decimal.exponent

/-- The magnitude of a binary fraction. -/
def Dyadic.magnitude (value : Dyadic) : ℚ := value.significand * 2 ^ value.exponent

namespace Decimal

/-- The quotient of a decimal is its magnitude, over a positive divisor. Places behind the point go
to the divisor, and powers of ten to the numerator. -/
theorem ratio_magnitude (decimal : Decimal) :
    0 < decimal.ratio.2 ∧ (decimal.ratio.1 : ℚ) / decimal.ratio.2 = decimal.magnitude := by
  obtain ⟨negative, digits, exponent⟩ := decimal
  cases exponent with
  | ofNat up =>
    refine ⟨Nat.one_pos, ?_⟩
    simp [ratio, magnitude]
  | negSucc down =>
    refine ⟨Nat.pow_pos (by decide), ?_⟩
    simp [ratio, magnitude, zpow_negSucc, div_eq_mul_inv]

/-- Decimals with one sign and one magnitude are read alike, however many zeros they are written
with. -/
theorem toFloat?_congr {decimal other : Decimal} (sameSign : decimal.negative = other.negative)
    (same : decimal.magnitude = other.magnitude) : decimal.toFloat? = other.toFloat? := by
  obtain ⟨positive, quotient⟩ := decimal.ratio_magnitude
  obtain ⟨otherPositive, otherQuotient⟩ := other.ratio_magnitude
  have bits := Number.nearestBits_congr positive otherPositive
    (quotient.trans (same.trans otherQuotient.symm))
  simp only [toFloat?, Number.nearest?, bits, sameSign]

/-- A decimal is read as a finite double or not at all: what would round to the infinity has no
double. -/
theorem toFloat?_finite {decimal : Decimal} {value : Float}
    (near : decimal.toFloat? = some value) : value.isFinite = true := by
  simp only [toFloat?, Number.nearest?] at near
  split at near
  · rename_i below
    cases near
    exact Number.ofMagnitude_finite _ below
  · cases near

/-- Moving a zero from the digits into the exponent keeps sign and magnitude. The induction is on
the number of zeros that may be moved. -/
theorem stripZeros_same (count : Nat) (decimal : Decimal) :
    (stripZeros count decimal).negative = decimal.negative ∧
      (stripZeros count decimal).magnitude = decimal.magnitude := by
  induction count generalizing decimal with
  | zero => exact ⟨rfl, rfl⟩
  | succ count inductionHypothesis =>
    rw [stripZeros]
    split
    · rename_i strippable
      obtain ⟨sign, kept⟩ := inductionHypothesis
        ⟨decimal.negative, decimal.digits / 10, decimal.exponent + 1⟩
      refine ⟨sign, kept.trans ?_⟩
      have tenth : (decimal.digits / 10 : ℕ) * 10 = decimal.digits := by omega
      simp only [magnitude]
      rw [zpow_add_one₀ (by norm_num), ← tenth]
      push_cast
      rw [show (decimal.digits / 10 : ℕ) * 10 / 10 = decimal.digits / 10 by omega]
      ring
    · exact ⟨rfl, rfl⟩

/-- The exact expansion keeps sign and magnitude. A power of two below zero is a power of five over
a power of ten. -/
theorem exact_same (value : Dyadic) :
    (exact value).negative = value.negative ∧ (exact value).magnitude = value.magnitude := by
  obtain ⟨negative, significand, exponent⟩ := value
  cases exponent with
  | ofNat up =>
    refine ⟨rfl, ?_⟩
    simp [exact, magnitude, Dyadic.magnitude]
  | negSucc down =>
    refine ⟨rfl, ?_⟩
    simp only [exact, magnitude, Dyadic.magnitude, zpow_negSucc, Nat.pow_eq, Nat.cast_mul,
      Nat.cast_pow, Nat.cast_ofNat]
    rw [show (10 : ℚ) = 5 * 2 by norm_num, mul_pow]
    field_simp

/-- Reading as a double is reading to that double, because the bits determine it. -/
theorem toFloat?_of_readsAs {decimal : Decimal} {value : Float}
    (reads : decimal.readsAs value = true) : decimal.toFloat? = some value := by
  simp only [readsAs] at reads
  split at reads
  · rename_i found isFound
    rw [isFound, Number.double_ext (beq_iff_eq.mp reads)]
  · exact absurd reads Bool.false_ne_true

/-- Whatever the search finds has been read back: each candidate is tried before it is taken. The
induction is on the number of tries that are left. -/
theorem search_reads {value : Float} {negative : Bool} {num den count : Nat} {grid : Int}
    {found : Decimal} (isFound : search value negative num den count grid = some found) :
    found.toFloat? = some value := by
  induction count generalizing grid with
  | zero => exact absurd isFound (by simp [search])
  | succ count inductionHypothesis =>
    simp only [search] at isFound
    split at isFound
    · rename_i candidate hit
      obtain rfl : candidate = found := Option.some.inj isFound
      have reads := List.find?_eq_some_iff_append.mp hit
      exact toFloat?_of_readsAs reads.1
    · exact inductionHypothesis isFound

end Decimal

namespace Dyadic

/-- A binary fraction is the value of a double: its significand stands at its last place, and its
fields make up the bits. -/
structure IsValueOf (dyadic : Dyadic) (value : Float) : Prop where
  least : -1074 ≤ dyadic.exponent
  below : dyadic.significand < 2 ^ 53
  full : dyadic.exponent = -1074 ∨ 2 ^ 52 ≤ dyadic.significand
  finite : (dyadic.exponent + 1074).toNat * Nat.pow 2 52 + dyadic.significand < Number.infinityBits
  bits : (if dyadic.negative then Nat.pow 2 63 else 0) +
    ((dyadic.exponent + 1074).toNat * Nat.pow 2 52 + dyadic.significand) = value.toBits.toNat

/-- A finite double has an exact value. The leading one of a normal number makes up for the place
that its exponent field is ahead of the last place. -/
theorem ofFloat?_finite {value : Float} (finite : value.isFinite = true) :
    ∃ dyadic, ofFloat? value = some dyadic ∧ dyadic.IsValueOf value := by
  have notFull := (Number.finite_iff value).mp finite
  have fields := Number.fields_toNat value.toBits
  have bound := value.toBits.toNat_lt
  have fractionBound : value.toBits.toNat % 2 ^ 52 < 2 ^ 52 := Nat.mod_lt _ (by decide)
  have fieldBound : Number.exponentField value.toBits < 2048 := Nat.mod_lt _ (by decide)
  have signBound : value.toBits.toNat / 2 ^ 63 < 2 := by omega
  have found : ofFloat? value =
      if Number.exponentField value.toBits = 2047 then none
      else if Number.exponentField value.toBits = 0 then
        some ⟨value.toBits.toNat / 2 ^ 63 == 1, value.toBits.toNat % 2 ^ 52, -1074⟩
      else some ⟨value.toBits.toNat / 2 ^ 63 == 1, 2 ^ 52 + value.toBits.toNat % 2 ^ 52,
        (Number.exponentField value.toBits : Int) - 1075⟩ := rfl
  rw [if_neg notFull] at found
  generalize Number.exponentField value.toBits = field at *
  generalize value.toBits.toNat % 2 ^ 52 = fraction at *
  generalize value.toBits.toNat / 2 ^ 63 = sign at *
  have signBit : (if (sign == 1) = true then 2 ^ 63 else 0) = sign * 2 ^ 63 := by
    obtain rfl | rfl : sign = 0 ∨ sign = 1 := by omega
    · rfl
    · rfl
  have infinity : Number.infinityBits = 2047 * 2 ^ 52 := by norm_num [Number.infinityBits]
  cases field with
  | zero =>
    have place : ((-1074 : Int) + 1074).toNat = 0 := rfl
    refine ⟨_, found, ⟨le_rfl, ?_, Or.inl rfl, ?_, ?_⟩⟩
    · dsimp only
      omega
    · simp only [infinity, Nat.pow_eq]
      omega
    · rw [← fields]
      simp only [signBit, Nat.pow_eq, place]
      ring
  | succ lower =>
    have place : (((lower + 1 : ℕ) : Int) - 1075 + 1074).toNat = lower := by omega
    refine ⟨_, found, ⟨?_, ?_, Or.inr (Nat.le_add_right _ _), ?_, ?_⟩⟩
    · dsimp only
      omega
    · dsimp only
      omega
    · simp only [place, infinity, Nat.pow_eq]
      omega
    · rw [← fields]
      simp only [place, signBit, Nat.pow_eq]
      ring

/-- A decimal with the sign and the magnitude of a finite double reads as that double. Its nearest
bits are the exact ones, and these make up the double. -/
theorem IsValueOf.reads {dyadic : Dyadic} {value : Float} (isValue : dyadic.IsValueOf value)
    (finite : value.isFinite = true) {decimal : Decimal}
    (sameSign : decimal.negative = dyadic.negative)
    (same : decimal.magnitude = dyadic.magnitude) : decimal.toFloat? = some value := by
  obtain ⟨positive, quotient⟩ := decimal.ratio_magnitude
  have bits := Number.nearestBits_exact positive (quotient.trans same) isValue.least isValue.below
    isValue.full
  have together : Number.ofMagnitude dyadic.negative
      ((dyadic.exponent + 1074).toNat * Nat.pow 2 52 + dyadic.significand) = value := by
    rw [Number.ofMagnitude, isValue.bits]
    exact (congrArg Float.ofBits (UInt64.ofNat_toNat)).trans (Number.ofBits_toBits finite)
  simp only [Decimal.toFloat?, Number.nearest?, bits, isValue.finite, if_true, sameSign, together]

end Dyadic

/-- The decimal chosen for a finite double reads back as it.

Proof: a zero is written as such. Otherwise the search has read back what it found, and stripping
zeros changes neither sign nor magnitude; if it found nothing, the exact expansion has those of the
double. -/
theorem Decimal.shortest?_reads {value : Float} (finite : value.isFinite = true) :
    ∃ decimal, shortest? value = some decimal ∧ decimal.toFloat? = some value := by
  obtain ⟨dyadic, isDyadic, isValue⟩ := Dyadic.ofFloat?_finite finite
  rw [shortest?, isDyadic, Option.map_some]
  refine ⟨_, rfl, ?_⟩
  split
  · rename_i zero
    apply isValue.reads finite rfl
    simp [magnitude, Dyadic.magnitude, zero]
  · dsimp only
    split
    · rename_i found isFound
      obtain ⟨sign, kept⟩ := stripZeros_same 20 found
      rw [toFloat?_congr sign kept]
      exact search_reads isFound
    · obtain ⟨sign, kept⟩ := exact_same dyadic
      exact isValue.reads finite sign kept

namespace Number

open Grammar

/-- The digits of a natural number are digits. -/
theorem digitsOf_only (value : Nat) : AllDigits (digitsOf value) := by
  intro c member
  have digit : c.isDigit = true := Nat.isDigit_of_mem_toDigits (by decide) (by decide) member
  exact digit

/-- The digits of a natural number have its value. -/
theorem digitsValue_digitsOf (value : Nat) : digitsValue (digitsOf value) = value :=
  Nat.ofDigitChars_ten_toDigits

/-- Zeros behind the digits multiply the value by powers of ten. -/
theorem digitsValue_zeros_after (digits : List Char) (count : Nat) :
    digitsValue (digits ++ List.replicate count '0') = digitsValue digits * 10 ^ count := by
  calc digitsValue (digits ++ List.replicate count '0')
      = Nat.ofDigitChars 10 (List.replicate count '0') (digitsValue digits) :=
        Nat.ofDigitChars_append 0
    _ = digitsValue digits * 10 ^ count := by rw [Nat.ofDigitChars_replicate_zero, Nat.mul_comm]

/-- Zeros in front of the digits do not count. -/
theorem digitsValue_zeros_before (digits : List Char) (count : Nat) :
    digitsValue (List.replicate count '0' ++ digits) = digitsValue digits := by
  calc digitsValue (List.replicate count '0' ++ digits)
      = Nat.ofDigitChars 10 digits (Nat.ofDigitChars 10 (List.replicate count '0') 0) :=
        Nat.ofDigitChars_append 0
    _ = digitsValue digits := by
        rw [Nat.ofDigitChars_replicate_zero, Nat.mul_zero]
        rfl

/-- A decimal without an exponent is a numeral of the same sign and magnitude. The exponent decides
where the point goes: behind the digits, among them, or in front of them. Zeros fill the gap in the
first and the last case, and do not change the value. -/
theorem positional_numeral (decimal : Decimal) :
    ∃ spelled, Numeral (positional decimal) spelled ∧ spelled.negative = decimal.negative ∧
      spelled.magnitude = decimal.magnitude := by
  obtain ⟨negative, digits, exponent⟩ := decimal
  have only := digitsOf_only digits
  have value := digitsValue_digitsOf digits
  have present : digitsOf digits ≠ [] := Nat.toDigits_ne_nil
  have zeros (count : Nat) : AllDigits (List.replicate count '0') := by
    intro c member
    rw [List.eq_of_mem_replicate member]
    rfl
  cases exponent with
  | ofNat up =>
    simp only [positional, positionalDigits]
    split
    · rename_i isZero
      -- Zero is written as one digit, whatever its exponent is.
      refine ⟨_, Numeral.whole negative present only, rfl, ?_⟩
      have zero : digits = 0 := by
        rw [← value, isZero]
        rfl
      simp [Decimal.magnitude, zero, digitsValue_digitsOf]
    · refine ⟨_, Numeral.whole negative (by simp [present]) ?_, rfl, ?_⟩
      · intro c member
        exact (List.mem_append.mp member).elim (only c) (zeros up c)
      · simp [Decimal.magnitude, digitsValue_zeros_after, value]
  | negSucc down =>
    simp only [positional, positionalDigits]
    split
    · rename_i among
      -- At least one digit stays in front of the point, as they are more than the places.
      have before : (digitsOf digits).take ((digitsOf digits).length - (down + 1)) ≠ [] := by
        intro empty
        have short := congrArg List.length empty
        rw [List.length_take, List.length_nil] at short
        omega
      have places :
          ((digitsOf digits).drop ((digitsOf digits).length - (down + 1))).length = down + 1 := by
        rw [List.length_drop]
        omega
      refine ⟨_, Numeral.pointed negative before
        (fun c member => only c (List.mem_of_mem_take member))
        (fun c member => only c (List.mem_of_mem_drop member)), rfl, ?_⟩
      simp only [Decimal.magnitude, List.take_append_drop, value, places, Int.negSucc_eq]
      push_cast
      rfl
    · rename_i inFront
      -- All digits stand behind the point, with zeros between it and the first.
      have places : (List.replicate (down + 1 - (digitsOf digits).length) '0' ++
          digitsOf digits).length = down + 1 := by
        rw [List.length_append, List.length_replicate]
        omega
      refine ⟨_, Numeral.pointed negative (List.cons_ne_nil '0' []) (zeros 1) ?_, rfl, ?_⟩
      · intro c member
        exact (List.mem_append.mp member).elim (zeros _ c) (only c)
      · have wholeValue : digitsValue (['0'] ++ (List.replicate
            (down + 1 - (digitsOf digits).length) '0' ++ digitsOf digits)) = digits := by
          exact (digitsValue_zeros_before _ 1).trans ((digitsValue_zeros_before _ _).trans value)
        simp only [Decimal.magnitude, wholeValue, places, Int.negSucc_eq]
        push_cast
        rfl

/-- A finite double is written as an atom that reads back as it. The decimal that was chosen reads
back, and its numeral has the same sign and magnitude. -/
theorem text_bare {value : Float} (finite : value.isFinite = true) :
    Bare (text value) (.number value) := by
  obtain ⟨decimal, chosen, reads⟩ := Decimal.shortest?_reads finite
  obtain ⟨spelled, numeral, sameSign, same⟩ := positional_numeral decimal
  have written : text value = positional decimal := by rw [text, chosen]
  rw [written]
  exact Bare.number numeral ((Decimal.toFloat?_congr sameSign same).trans reads)

end Number

end TermLang
